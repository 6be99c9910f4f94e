/-
# The calculator

A calculator reads an expression and evaluates its postfix sequence, within the limit of its
settings.  An expression is checked in this order: is it there, is it more than blanks, is it
short enough, can it be read, has it a value.

The events of a calculation follow its course: none before the length is checked, one if the
expression is too long, and otherwise a start and then the outcome of each stage.
-/

import InfixCalc.Evaluation
import InfixCalc.Settings
import InfixCalc.Yard

namespace InfixCalc

/-- What a calculator does and finds. -/
inductive CalcEvent where
  | tooLong (length limit : Nat)
  | started (length : Nat)
  | unreadable (cause : ParseError)
  | read (tokens : List Token)
  | noValue (cause : EvalError)
  | finished (value : Int32)
  deriving DecidableEq, Repr

/-- The log entry of an event. -/
def CalcEvent.entry : CalcEvent → LogEntry
  | tooLong length limit =>
    ⟨.debug, "表达式超出长度上限", [("len", toString length), ("max", toString limit)]⟩
  | started length => ⟨.debug, "开始解析表达式", [("len", toString length)]⟩
  | unreadable cause => ⟨.debug, "表达式解析失败", [("error", cause.message)]⟩
  | read tokens => ⟨.trace, "后缀序列", [("postfix", Token.postfixText tokens)]⟩
  | noValue cause => ⟨.debug, "后缀序列求值失败", [("error", cause.message)]⟩
  | finished value => ⟨.debug, "表达式计算完成", [("result", Decimal.ofInt32 value)]⟩

/-- A calculator is determined by its settings. -/
structure Calculator where
  settings : Settings := {}
  deriving DecidableEq, Repr, Inhabited

namespace Calculator

/-- Reads an expression of admissible length. -/
def parseAdmitted (calculator : Calculator) (text : String) :
    Logged CalcEvent (Except CalcError (List Token)) :=
  match InfixCalc.parse text with
  | .error cause => ⟨.error (.parse cause), [.started text.length, .unreadable cause]⟩
  | .ok tokens =>
    ⟨.ok tokens,
      .started text.length :: if calculator.settings.tracePostfix then [.read tokens] else []⟩

/-- Reads an expression as a postfix sequence, within the limit of the settings. -/
def parse (calculator : Calculator) (expression : Option String) :
    Logged CalcEvent (Except CalcError (List Token)) :=
  match checkArgument expression with
  | .error cause => ⟨.error (.parse (.invalidArgument cause)), []⟩
  | .ok text =>
    match calculator.settings.exceeded? text.length with
    | some limit =>
      ⟨.error (.parse (.invalidArgument (.tooLong text.length limit.toNat))),
        [.tooLong text.length limit.toNat]⟩
    | none => calculator.parseAdmitted text

/-- The value of an expression. -/
def calculate (calculator : Calculator) (expression : Option String) :
    Logged CalcEvent (Except CalcError Int32) :=
  let parsed := calculator.parse expression
  match parsed.value with
  | .error cause => ⟨.error cause, parsed.events⟩
  | .ok tokens =>
    match evaluate tokens with
    | .error cause => ⟨.error (.eval cause), parsed.events ++ [.noValue cause]⟩
    | .ok value => ⟨.ok value, parsed.events ++ [.finished value]⟩

end Calculator

/-- The value of an expression without a limit on its length. -/
def calculate (expression : Option String) : Except CalcError Int32 :=
  (Calculator.calculate {} expression).value

end InfixCalc
