/-
# Corpora of cases

A corpus is a text with one case on a line:

| line | meaning |
| --- | --- |
| `2+3*4 => 14` | the value of the expression is 14 |
| `1/0 => DivideByZero` | the expression fails with an error of this kind |
| `\t  \n => InvalidArgument` | an expression may hold escapes |
| `<none> => InvalidArgument` | there is no expression |
| `# a comment` | ignored, like a blank line |

The last `=>` of a line divides it.  Blanks around the right side do not matter; on the left
side they belong to the expression.  A malformed line is reported and skipped.
-/

import InfixCalc.Diagnostic
import InfixCalc.Text.Lines

namespace InfixCalc

/-- What a case expects. -/
inductive Expectation where
  | value (n : Int32)
  | error (kind : ErrorKind)
  deriving DecidableEq, Repr

/-- A value is written in decimal, an error as the name of its kind. -/
def Expectation.text : Expectation → String
  | value n => Decimal.ofInt32 n
  | error kind => kind.name

/-- The expectation that a text is written for. -/
def Expectation.ofText? (text : List Char) : Option Expectation :=
  match Decimal.readInt32? text with
  | some n => some (.value n)
  | none => (ErrorKind.ofName? (String.ofList text)).map .error

/-- A case of a corpus. -/
structure CorpusCase where
  /-- The line of the case, counted from one. -/
  line : Nat
  /-- The expression, if there is one. -/
  expression : Option String
  expected : Expectation
  deriving DecidableEq, Repr

/-- What is wrong with a line of a corpus. -/
inductive LineError where
  | noSeparator
  | unknownExpectation (text : String)
  | badEscape (cause : Text.EscapeError)
  deriving DecidableEq, Repr

/-- The wording of a line error. -/
def LineError.message : LineError → String
  | noSeparator => "缺少 '=>' 分隔符"
  | unknownExpectation text => "无法识别的期望结果: '" ++ text ++ "'"
  | badEscape (.unknown c) => "未知的转义序列: '\\" ++ String.singleton c ++ "'"
  | badEscape .unfinished => "转义序列不完整"

/-- A corpus: its cases, and a diagnostic for each malformed line. -/
structure Corpus where
  cases : List CorpusCase
  malformed : List Diagnostic
  deriving DecidableEq, Repr

namespace Corpus

/-- What stands for a missing expression. -/
def missingMark : List Char := "<none>".toList

/-- Looks for `=>` in a line that is given backwards, before the characters that follow. -/
def divideBackwards (following : List Char) : List Char → Option (List Char × List Char)
  | [] => none
  | '>' :: '=' :: before => some (before.reverse, following)
  | c :: before => divideBackwards (c :: following) before

/-- The two sides of the last `=>` in a line. -/
def divide? (line : List Char) : Option (List Char × List Char) := divideBackwards [] line.reverse

/-- A line is significant unless it is blank or a comment. -/
def isSignificant (line : List Char) : Bool :=
  match Text.trim line with
  | [] => false
  | c :: _ => c != '#'

/-- The expression that the left side of a case is written for. -/
def readExpression (left : List Char) : Except LineError (Option String) :=
  if Text.trim left = missingMark then .ok none
  else
    match Text.unescape left with
    | .ok expression => .ok (some (String.ofList expression))
    | .error cause => .error (.badEscape cause)

/-- Reads a significant line.  The right side is looked at before the left. -/
def readCase (number : Nat) (line : List Char) : Except LineError CorpusCase :=
  match divide? line with
  | none => .error .noSeparator
  | some (left, right) =>
    match Expectation.ofText? (Text.trim right) with
    | none => .error (.unknownExpectation (String.ofList (Text.trim right)))
    | some expected =>
      match readExpression left with
      | .ok expression => .ok ⟨number, expression, expected⟩
      | .error cause => .error cause

/-- The significant lines of a text with their numbers, counted from one. -/
def significantLines (text : List Char) : List (List Char × Nat) :=
  ((Text.lines text).zipIdx 1).filter fun line => isSignificant line.1

/-- The case of a numbered line, if it is well formed. -/
def case? (line : List Char × Nat) : Option CorpusCase :=
  match readCase line.2 line.1 with
  | .ok case => some case
  | .error _ => none

/-- The diagnostic of a numbered line, if it is malformed; it shows the line as it is. -/
def problem? (source : String) (line : List Char × Nat) : Option Diagnostic :=
  match readCase line.2 line.1 with
  | .ok _ => none
  | .error cause => some ⟨.error, source, some line.2, cause.message, some (String.ofList line.1)⟩

/-- Reads a corpus. -/
def read (source text : String) : Corpus :=
  let lines := significantLines text.toList
  ⟨lines.filterMap case?, lines.filterMap (problem? source)⟩

end Corpus
end InfixCalc
