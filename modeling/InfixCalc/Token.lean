/-
# Operators and tokens

| operator | symbol | precedence | may be a sign |
| --- | --- | ---: | --- |
| `add` | `+` | 1 | yes |
| `sub` | `-` | 1 | yes |
| `mul` | `*` | 2 | no |
| `div` | `/` | 2 | no |

A higher precedence binds more tightly; operators of one precedence group from the left.

A parsed expression is a list of tokens in postfix order: the operands of an operator stand
before it.  `2+3*4` is `2 3 4 * +`, which is also how the list is written.
-/

import InfixCalc.Decimal

namespace InfixCalc

/-- An operator of the calculator. -/
inductive Operator where
  | add
  | sub
  | mul
  | div
  deriving DecidableEq, Repr, Inhabited

namespace Operator

/-- The character that stands for the operator. -/
def symbol : Operator → Char
  | add => '+'
  | sub => '-'
  | mul => '*'
  | div => '/'

/-- The operator that a character stands for. -/
def ofChar? : Char → Option Operator
  | '+' => some add
  | '-' => some sub
  | '*' => some mul
  | '/' => some div
  | _ => none

/-- How tightly the operator binds. -/
def precedence : Operator → Nat
  | add | sub => 1
  | mul | div => 2

/-- The operator may stand before its only operand. -/
def isSign : Operator → Bool
  | add | sub => true
  | mul | div => false

/-- The operator's name in JSON. -/
def name : Operator → String
  | add => "Add"
  | sub => "Sub"
  | mul => "Mul"
  | div => "Div"

/-- The operator with a given name. -/
def ofName? : String → Option Operator
  | "Add" => some add
  | "Sub" => some sub
  | "Mul" => some mul
  | "Div" => some div
  | _ => none

/-- The operator's text is its symbol. -/
def text (op : Operator) : String := String.singleton op.symbol

/-- Every operator is read back from its symbol. -/
@[simp] theorem ofChar?_symbol (op : Operator) : ofChar? op.symbol = some op := by
  cases op <;> rfl

/-- **Symbols determine operators**, and only the four symbols are operators. -/
theorem ofChar?_eq_some_iff {c : Char} {op : Operator} : ofChar? c = some op ↔ c = op.symbol := by
  constructor
  · unfold ofChar?
    split <;> simp_all <;> rintro rfl <;> rfl
  · rintro rfl
    exact ofChar?_symbol op

/-- Every operator is known by its name. -/
@[simp] theorem ofName?_name (op : Operator) : ofName? op.name = some op := by
  cases op <;> rfl

end Operator

/-- A number or an operator of a postfix sequence. -/
inductive Token where
  | number (value : Int32)
  | operator (op : Operator)
  deriving DecidableEq, Repr, Inhabited

namespace Token

/-- A number is written in decimal, an operator as its symbol. -/
def text : Token → String
  | number value => Decimal.ofInt32 value
  | operator op => op.text

/-- The operator token that a character stands for. -/
def ofChar? (c : Char) : Option Token := (Operator.ofChar? c).map operator

/-- A postfix sequence is written with one space between tokens. -/
def postfixText (tokens : List Token) : String := " ".intercalate (tokens.map text)

end Token
end InfixCalc
