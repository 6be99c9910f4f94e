/-
# Diagnostics

A diagnostic says what is wrong at a line of a source.  It is written as

`[ERROR] source:line: message`

without the line if there is none, and followed by its detail, if it has one, on a line that
begins with `  | `.  The detail of an error in an expression is the expression on one line,
its blanks drawn as spaces, and below it a caret under the place of the error.
-/

import InfixCalc.Error
import InfixCalc.Text.Blank

namespace InfixCalc

/-- How serious a diagnostic is. -/
inductive Severity where
  | info
  | warn
  | error
  deriving DecidableEq, Repr

namespace Severity

/-- The name of a severity. -/
def name : Severity → String
  | info => "INFO"
  | warn => "WARN"
  | error => "ERROR"

/-- Severities in increasing order. -/
def rank : Severity → Nat
  | info => 0
  | warn => 1
  | error => 2

/-- The greater of two severities. -/
def max (a b : Severity) : Severity := if a.rank ≤ b.rank then b else a

end Severity

/-- A diagnostic. -/
structure Diagnostic where
  severity : Severity
  /-- The name of the file or text that the diagnostic is about. -/
  source : String
  /-- The line, counted from one. -/
  line : Option Nat
  message : String
  detail : Option String
  deriving DecidableEq, Repr

namespace Diagnostic

/-- A diagnostic about a source as a whole. -/
def plain (severity : Severity) (source message : String) : Diagnostic :=
  ⟨severity, source, none, message, none⟩

/-- What begins a line below the first. -/
def margin : String := "\n  | "

/-- An expression on one line: blanks are drawn as spaces. -/
def onOneLine (expression : String) : String :=
  expression.map fun c => if Text.isBlank c then ' ' else c

/-- An expression on one line, with a caret under one of its characters. -/
def drawing (expression : String) (position : Option Nat) : String :=
  match position with
  | some position =>
    onOneLine expression ++ margin ++ String.ofList (List.replicate position ' ') ++ "^"
  | none => onOneLine expression

/-- The diagnostic of an error in an expression. -/
def ofError (source : String) (expression : Option String) (cause : CalcError) : Diagnostic :=
  { plain .error source cause.message with
    detail := expression.map fun expression => drawing expression cause.position? }

/-- The diagnostic at a line. -/
def atLine (diagnostic : Diagnostic) (line : Nat) : Diagnostic :=
  { diagnostic with line := some line }

/-- The diagnostic with this detail. -/
def withDetail (diagnostic : Diagnostic) (detail : String) : Diagnostic :=
  { diagnostic with detail := some detail }

/-- How a diagnostic is written. -/
def text (diagnostic : Diagnostic) : String :=
  "[" ++ diagnostic.severity.name ++ "] " ++ diagnostic.source ++
    (match diagnostic.line with
      | some line => ":" ++ toString line
      | none => "") ++
    ": " ++ diagnostic.message ++
    (match diagnostic.detail with
      | some detail => margin ++ detail
      | none => "")

/-- How many of the diagnostics have this severity. -/
def count (severity : Severity) (diagnostics : List Diagnostic) : Nat :=
  diagnostics.countP fun diagnostic => diagnostic.severity == severity

/-- Some diagnostic is an error. -/
def hasErrors (diagnostics : List Diagnostic) : Bool := 0 < count .error diagnostics

/-- The greatest severity among diagnostics. -/
def greatest? (diagnostics : List Diagnostic) : Option Severity :=
  diagnostics.foldl
    (fun greatest diagnostic =>
      match greatest with
      | some severity => some (severity.max diagnostic.severity)
      | none => some diagnostic.severity)
    none

end Diagnostic
end InfixCalc
