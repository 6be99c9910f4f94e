/-
# Checking a corpus

A case passes when its expression has the expected value or fails with the expected kind of
error.  A report counts the cases and those that pass, and collects a diagnostic for each
malformed line and then for each case that does not pass.  Reports of several corpora are
merged by adding the counts and joining the diagnostics.
-/

import InfixCalc.Calculator
import InfixCalc.Corpus

namespace InfixCalc

/-- The outcome of checking corpora. -/
structure Report where
  checked : Nat := 0
  passed : Nat := 0
  diagnostics : List Diagnostic := []
  deriving DecidableEq, Repr, Inhabited

/-- The report of one corpus after another. -/
def Report.merge (first second : Report) : Report :=
  ⟨first.checked + second.checked, first.passed + second.passed,
    first.diagnostics ++ second.diagnostics⟩

namespace CorpusCase

/-- The outcome is what the case expects. -/
def accepts (case : CorpusCase) (outcome : Except CalcError Int32) : Bool :=
  match case.expected, outcome with
  | .value expected, .ok actual => expected == actual
  | .error kind, .error cause => cause.kind == kind
  | _, _ => false

/-- The diagnostic of an outcome that the case does not expect. -/
def mismatch (case : CorpusCase) (source : String) (outcome : Except CalcError Int32) :
    Diagnostic :=
  match outcome with
  | .ok actual =>
    ⟨.error, source, some case.line,
      "期望 " ++ case.expected.text ++ "，实际得到 " ++ Decimal.ofInt32 actual,
      case.expression.map fun expression => Diagnostic.drawing expression none⟩
  | .error cause =>
    { Diagnostic.ofError source case.expression cause with
      line := some case.line
      message :=
        "期望 " ++ case.expected.text ++ "，实际 " ++ cause.kind.name ++ ": " ++ cause.message }

/-- Calculates the expression of a case; a diagnostic, unless the case passes. -/
def check (case : CorpusCase) (calculator : Calculator) (source : String) :
    Logged CalcEvent (Option Diagnostic) :=
  let outcome := calculator.calculate case.expression
  ⟨if case.accepts outcome.value then none else some (case.mismatch source outcome.value),
    outcome.events⟩

end CorpusCase

namespace Corpus

/-- Checks all cases of a corpus. -/
def check (calculator : Calculator) (source text : String) : Logged CalcEvent Report :=
  let corpus := read source text
  let checks := corpus.cases.map fun case => case.check calculator source
  let failures := checks.filterMap Logged.value
  ⟨⟨checks.length, checks.length - failures.length, corpus.malformed ++ failures⟩,
    checks.flatMap Logged.events⟩

end Corpus
end InfixCalc
