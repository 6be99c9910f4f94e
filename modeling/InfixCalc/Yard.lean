/-
# The shunting yard

A yard turns lexemes into a postfix sequence in one pass.  Numbers go straight to the output;
operators wait on a stack until no operator that binds more tightly, or equally tightly and
further left, can still come before them.  An open parenthesis waits on the same stack and
shields what is below it.

What may come next is one of three things:

| expected | after | accepted |
| --- | --- | --- |
| group start | nothing, or `(` | literal, `(`, sign |
| operand | operator | literal, `(` |
| operator | literal, or `)` | operator, `)`, end |

A sign at the start of a group gets a zero as its left operand.  A sign at the start of the
whole expression does not: it reaches the output as an operator with one operand.

`parse` reads a text as an expression and gives its postfix sequence.
-/

import InfixCalc.Error
import InfixCalc.Lexeme

namespace InfixCalc

/-- What waits on the stack of a yard. -/
inductive Waiting where
  | operator (op : Operator)
  /-- An open parenthesis, with its position in the text. -/
  | openParen (position : Nat)
  deriving DecidableEq, Repr

/-- What may come next. -/
inductive Expected where
  | groupStart
  | operand
  | operator
  deriving DecidableEq, Repr, Inhabited

/-- The state of a shunting yard. -/
structure Yard where
  /-- What waits, the latest first. -/
  stack : List Waiting
  /-- The postfix sequence so far, the latest token first. -/
  output : List Token
  /-- What may come next. -/
  expected : Expected
  deriving DecidableEq, Repr

namespace Yard

/-- The yard before the first lexeme. -/
def start : Yard := ⟨[], [], .groupStart⟩

/-- Moves the operators that `op` must wait for from the stack to the output: those on top
that bind at least as tightly. -/
def release (op : Operator) : List Waiting → List Token → List Waiting × List Token
  | .operator top :: stack, output =>
    if top.precedence < op.precedence then (.operator top :: stack, output)
    else release op stack (.operator top :: output)
  | stack, output => (stack, output)

/-- Moves the operators of the innermost open group to the output and takes its parenthesis
off the stack; nothing, if no group is open. -/
def closeGroup : List Waiting → List Token → Option (List Waiting × List Token)
  | .operator top :: stack, output => closeGroup stack (.operator top :: output)
  | .openParen _ :: stack, output => some (stack, output)
  | [], _ => none

/-- Moves all that waits to the output; fails at the innermost open group, if there is one. -/
def drain : List Waiting → List Token → Except ParseError (List Token)
  | .operator top :: stack, output => drain stack (.operator top :: output)
  | .openParen position :: _, _ => .error (.unexpected '(' position)
  | [], output => .ok output

/-- The output that a sign at the start of a group is put after: a zero stands for the missing
left operand, unless the group is the whole expression. -/
def signOutput : List Waiting → List Token → List Token
  | .openParen _ :: _, output => .number 0 :: output
  | _, output => output

/-- An operator releases what it must wait for and then waits itself. -/
def putOperator (op : Operator) (stack : List Waiting) (output : List Token) : Yard :=
  let (stack, output) := release op stack output
  ⟨.operator op :: stack, output, .operand⟩

/-- The yard after one lexeme more.  A lexeme that may not come next is reported at its first
character, and so is a literal that comes where it may but is too large. -/
def step (yard : Yard) (next : Placed) : Except ParseError Yard :=
  let refused := .error (.unexpected next.lexeme.head next.position)
  match next.lexeme, yard.expected with
  | .literal first more, .groupStart | .literal first more, .operand =>
    match Decimal.int32OfDigits? false (first :: more) with
    | some value => .ok ⟨yard.stack, .number value :: yard.output, .operator⟩
    | none => .error (.overflow (String.ofList (first :: more)) next.position)
  | .openParen, .groupStart | .openParen, .operand =>
    .ok ⟨.openParen next.position :: yard.stack, yard.output, .groupStart⟩
  | .closeParen, .operator =>
    match closeGroup yard.stack yard.output with
    | some (stack, output) => .ok ⟨stack, output, .operator⟩
    | none => refused
  | .operator op, .groupStart =>
    if op.isSign then .ok (putOperator op yard.stack (signOutput yard.stack yard.output))
    else refused
  | .operator op, .operator => .ok (putOperator op yard.stack yard.output)
  | _, _ => refused

/-- The yard after further lexemes, or the error of the first that is refused. -/
def run (yard : Yard) : List Placed → Except ParseError Yard
  | [] => .ok yard
  | next :: rest =>
    match yard.step next with
    | .ok yard => yard.run rest
    | .error e => .error e

/-- The postfix sequence of a yard whose text has ended.  If an operand is still to come, the
last character of the text is the unexpected one. -/
def finish (yard : Yard) (text : List Char) : Except ParseError (List Token) :=
  if yard.expected = .operator then (drain yard.stack yard.output).map List.reverse
  else .error (ParseError.unexpectedAt text text.length)

/-- Lexemes are placed in two parts: the second from the yard that the first leaves. -/
theorem run_append (yard : Yard) (first second : List Placed) :
    yard.run (first ++ second) =
      match yard.run first with
      | .ok yard => yard.run second
      | .error e => .error e := by
  induction first generalizing yard with
  | nil => rfl
  | cons next rest ih =>
    simp only [List.cons_append, run]
    cases yard.step next with
    | ok yard => exact ih yard
    | error e => rfl

end Yard

/-- The expression itself, if there is one and it is more than blanks. -/
def checkArgument : Option String → Except ArgumentError String
  | none => .error .missing
  | some text => if text.toList.all Text.isBlank then .error .blank else .ok text

/-- The postfix sequence of the expression in a text that is more than blanks. -/
def postfixOf (text : List Char) : Except ParseError (List Token) :=
  match Yard.start.run (Lexeme.read text) with
  | .ok yard => yard.finish text
  | .error e => .error e

/-- Reads an expression that may be missing as a postfix sequence. -/
def parse? (expression : Option String) : Except ParseError (List Token) :=
  match checkArgument expression with
  | .ok text => postfixOf text.toList
  | .error e => .error (.invalidArgument e)

/-- Reads an expression as a postfix sequence. -/
def parse (text : String) : Except ParseError (List Token) := parse? (some text)

end InfixCalc
