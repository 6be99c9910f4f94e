import InfixCalc.Calculator
import InfixCalc.Corpus.Command
import InfixCalc.Cursor
import InfixCalc.Expr.Value
import InfixCalc.Main
import InfixCalc.Token.Json
import InfixCalc.Proofs.Spelling
import InfixCalc.Proofs.Draft
import InfixCalc.Proofs.Simulation
import InfixCalc.Proofs.Derivation
import InfixCalc.Proofs.Divisions
import InfixCalc.Proofs.Nesting
import InfixCalc.Proofs.Viability
import InfixCalc.Proofs.Refusal
import InfixCalc.Proofs.ErrorPosition
import InfixCalc.Proofs.Operands
import InfixCalc.Proofs.EvaluationErrors
import InfixCalc.Proofs.Parentheses
import InfixCalc.Proofs.Congruence
import InfixCalc.Proofs.Separators
import InfixCalc.Proofs.Substitution
import InfixCalc.Proofs.Exact
import InfixCalc.Proofs.CorpusWriting
import InfixCalc.Proofs.Accounting
import InfixCalc.Proofs.Composition
import InfixCalc.Proofs.Verdict
import InfixCalc.Proofs.Restriction
import InfixCalc.Proofs.Drawing
import InfixCalc.Proofs.Messages
import InfixCalc.Proofs.PrintedLines
import InfixCalc.Proofs.Faults
import InfixCalc.Proofs.Streaming
import InfixCalc.Proofs.Events
import InfixCalc.Proofs.JsonSpelling
import InfixCalc.Proofs.JsonWriting
import InfixCalc.Proofs.SettingsText
import InfixCalc.Proofs.FileGrowth
import InfixCalc.Proofs.Walk
import InfixCalc.Proofs.SettingsStore
import InfixCalc.Proofs.PostfixText
import InfixCalc.Proofs.LineEnds
import InfixCalc.Proofs.TokenText
import InfixCalc.Proofs.SettingsMembers
import InfixCalc.Proofs.CursorMoves
import InfixCalc.Proofs.SignedNumerals
import InfixCalc.Proofs.Balance
import InfixCalc.Proofs.Conservation
