/-
# Errors

An expression can fail in three places: the argument itself, its reading as an infix
expression, and the evaluation of the postfix sequence.  Each has a type of causes with one
`message` function; `CalcError` joins them.  Every error has one of four kinds:

| kind | causes |
| --- | --- |
| `InvalidArgument` | no expression, nothing but blanks, too long |
| `UnexpectedToken` | a character that cannot stand where it does, an ill-formed sequence |
| `NumericOverflow` | a literal above the largest 32-bit integer |
| `DivideByZero` | a division by zero |

Only the errors of reading have a position in the expression, counted in characters from zero.
-/

import InfixCalc.Token

namespace InfixCalc

/-- The four kinds of errors. -/
inductive ErrorKind where
  | invalidArgument
  | unexpectedToken
  | numericOverflow
  | divideByZero
  deriving DecidableEq, Repr, Inhabited

namespace ErrorKind

/-- The name of a kind, which is also how it is written. -/
def name : ErrorKind → String
  | invalidArgument => "InvalidArgument"
  | unexpectedToken => "UnexpectedToken"
  | numericOverflow => "NumericOverflow"
  | divideByZero => "DivideByZero"

/-- The kind with a given name. -/
def ofName? : String → Option ErrorKind
  | "InvalidArgument" => some invalidArgument
  | "UnexpectedToken" => some unexpectedToken
  | "NumericOverflow" => some numericOverflow
  | "DivideByZero" => some divideByZero
  | _ => none

/-- Every kind is known by its name. -/
@[simp] theorem ofName?_name (kind : ErrorKind) : ofName? kind.name = some kind := by
  cases kind <;> rfl

end ErrorKind

/-- What can be wrong with an expression before it is read. -/
inductive ArgumentError where
  | missing
  | blank
  | tooLong (length limit : Nat)
  deriving DecidableEq, Repr

/-- The wording of an argument error. -/
def ArgumentError.message : ArgumentError → String
  | missing => "表达式不能为空值"
  | blank => "表达式不能为空白"
  | tooLong length limit => s!"表达式长度 {length} 超出上限 {limit}"

/-- Why an expression cannot be read. -/
inductive ParseError where
  | invalidArgument (cause : ArgumentError)
  | unexpected (found : Char) (position : Nat)
  | overflow (literal : String) (position : Nat)
  deriving DecidableEq, Repr

namespace ParseError

/-- The wording of a reading error. -/
def message : ParseError → String
  | invalidArgument cause => "参数无效: " ++ cause.message
  | unexpected found position => s!"位置 {position} 处出现意外的字符 '{found}'"
  | overflow literal position => s!"位置 {position} 处的数字 '{literal}' 超出 32 位整数范围"

/-- The kind of a reading error. -/
def kind : ParseError → ErrorKind
  | invalidArgument _ => .invalidArgument
  | unexpected .. => .unexpectedToken
  | overflow .. => .numericOverflow

/-- Where in the expression the error is. -/
def position? : ParseError → Option Nat
  | invalidArgument _ => none
  | unexpected _ position => some position
  | overflow _ position => some position

/-- The character at a position is unexpected.  A position past the end stands for the last
character, and an empty text for a space at position zero. -/
def unexpectedAt (text : List Char) (position : Nat) : ParseError :=
  let index := min position (text.length - 1)
  unexpected (text[index]?.getD ' ') index

end ParseError

/-- Why a postfix sequence has no value.  Indices count its tokens from zero. -/
inductive EvalError where
  /-- An operator comes before any number. -/
  | noOperand (op : Operator) (index : Nat)
  /-- An operator that is no sign has one operand only. -/
  | noLeftOperand (op : Operator) (index : Nat)
  /-- More than one value is left at the end. -/
  | leftover (count : Nat)
  /-- The sequence has no token. -/
  | empty
  /-- A value is divided by zero. -/
  | divideByZero (dividend : Int32) (index : Nat)
  deriving DecidableEq, Repr

namespace EvalError

/-- The wording of an evaluation error. -/
def message : EvalError → String
  | noOperand op index => s!"后缀序列第 {index} 个记号 '{op.symbol}' 缺少操作数"
  | noLeftOperand op index => s!"后缀序列第 {index} 个记号 '{op.symbol}' 缺少左操作数"
  | leftover count => s!"后缀序列不完整：求值结束后残留 {count} 个值"
  | empty => "后缀序列为空"
  | divideByZero dividend index => s!"后缀序列第 {index} 个记号：{Decimal.ofInt32 dividend} 除以零"

/-- The kind of an evaluation error: all but a division by zero are faults of the sequence. -/
def kind : EvalError → ErrorKind
  | divideByZero .. => .divideByZero
  | noOperand .. | noLeftOperand .. | leftover _ | empty => .unexpectedToken

end EvalError

/-- Why an expression has no value. -/
inductive CalcError where
  | parse (cause : ParseError)
  | eval (cause : EvalError)
  deriving DecidableEq, Repr

namespace CalcError

/-- The wording of an error tells which of the two stages failed. -/
def message : CalcError → String
  | parse cause => "解析错误: " ++ cause.message
  | eval cause => "求值错误: " ++ cause.message

/-- The kind of an error. -/
def kind : CalcError → ErrorKind
  | parse cause => cause.kind
  | eval cause => cause.kind

/-- Where in the expression the error is; an error of evaluation is nowhere in the text. -/
def position? : CalcError → Option Nat
  | parse cause => cause.position?
  | eval _ => none

end CalcError
end InfixCalc
