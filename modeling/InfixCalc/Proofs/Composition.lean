/-
# Corpora that are put together

A corpus may be cut where a line ends: the second part is then checked as it would be alone, with
its lines so many lines further down (`Corpus.read_append`).  The counts of the two reports are
added.  Malformed lines are still reported before cases that do not pass, so the diagnostics of the
whole are those of the parts in another order.

Reports are merged one into the other.  A `Merging` is a way to group the merges of several reports,
and only the reports and their order matter (`Merging.result_eq`).
-/

import InfixCalc.Proofs.Accounting
import InfixCalc.Proofs.Lines
import Mathlib.Algebra.GroupWithZero.Nat

namespace InfixCalc

/-- The diagnostic so many lines further down. -/
def Diagnostic.below (count : Nat) (diagnostic : Diagnostic) : Diagnostic :=
  { diagnostic with line := diagnostic.line.map (· + count) }

/-- The case so many lines further down. -/
def CorpusCase.below (count : Nat) (case : CorpusCase) : CorpusCase :=
  { case with line := case.line + count }

/-- A case is checked in the same way wherever it stands. -/
theorem CorpusCase.check_below (count : Nat) (case : CorpusCase) (calculator : Calculator)
    (source : String) :
    ((case.below count).check calculator source).value =
      (case.check calculator source).value.map (Diagnostic.below count) := by
  have haccepts : ∀ outcome, (case.below count).accepts outcome = case.accepts outcome :=
    fun _ => rfl
  have hmismatch : ∀ outcome, (case.below count).mismatch source outcome =
      (case.mismatch source outcome).below count := by rintro (cause | actual) <;> rfl
  have hexpression : (case.below count).expression = case.expression := rfl
  simp only [check, haccepts, hmismatch, hexpression]
  split <;> rfl

namespace Corpus

/-- The numbered line so many lines further down. -/
def lineBelow (count : Nat) (line : List Char × Nat) : List Char × Nat := (line.1, line.2 + count)

/-- A line is read in the same way wherever it stands. -/
theorem readCase_add (number count : Nat) (line : List Char) :
    readCase (number + count) line = (readCase number line).map (CorpusCase.below count) := by
  unfold readCase
  repeat' split
  all_goals rfl

/-- The case of a line further down is the same case further down. -/
theorem case?_lineBelow (count : Nat) (line : List Char × Nat) :
    case? (lineBelow count line) = (case? line).map (CorpusCase.below count) := by
  rw [case?, case?, lineBelow, readCase_add]
  cases readCase line.2 line.1 <;> rfl

/-- The problem of a line further down is the same problem further down. -/
theorem problem?_lineBelow (source : String) (count : Nat) (line : List Char × Nat) :
    problem? source (lineBelow count line) =
      (problem? source line).map (Diagnostic.below count) := by
  rw [problem?, problem?, lineBelow, readCase_add]
  cases readCase line.2 line.1 <;> rfl

/-- **The significant lines after a cut** are numbered on. -/
theorem significantLines_append {first : List Char} (h : Text.EndsLine first)
    (second : List Char) :
    significantLines (first ++ second) =
      significantLines first ++
        (significantLines second).map (lineBelow (first.count '\n')) := by
  have hnumber : (Text.lines second).zipIdx (1 + (Text.lines first).length) =
      ((Text.lines second).zipIdx 1).map (lineBelow (first.count '\n')) := by
    rw [Text.length_lines h, List.zipIdx_eq_map_add, List.zipIdx_eq_map_add (i := 1),
      List.map_map]
    refine List.map_congr_left fun line _ => Prod.ext rfl ?_
    simp only [Function.comp_apply, lineBelow]
    omega
  rw [significantLines, Text.lines_append h, List.zipIdx_append, List.filter_append, hnumber,
    List.filter_map]
  rfl

/-- **A corpus may be cut where a line ends:** it has the cases and the malformed lines of its
parts, those of the second part further down. -/
theorem read_append (source : String) {first : String} (h : Text.EndsLine first.toList)
    (second : String) :
    read source (first ++ second) =
      ⟨(read source first).cases ++
          (read source second).cases.map (CorpusCase.below (first.toList.count '\n')),
        (read source first).malformed ++
          (read source second).malformed.map (Diagnostic.below (first.toList.count '\n'))⟩ := by
  simp only [read, String.toList_append, significantLines_append h, List.filterMap_append,
    List.filterMap_map, List.map_filterMap, Function.comp_def, case?_lineBelow,
    problem?_lineBelow]

/-- The failures of a corpus in two parts are those of the first, and then those of the second
below it. -/
theorem failures_append (calculator : Calculator) (source : String) {first : String}
    (h : Text.EndsLine first.toList) (second : String) :
    failures calculator source (first ++ second) =
      failures calculator source first ++
        (failures calculator source second).map
          (Diagnostic.below (first.toList.count '\n')) := by
  simp only [failures, read_append source h, List.filterMap_append, List.filterMap_map,
    List.map_filterMap, Function.comp_def, CorpusCase.check_below]

end Corpus

namespace Report

/-- The report of several corpora, one after another. -/
def total (reports : List Report) : Report :=
  ⟨(reports.map checked).sum, (reports.map passed).sum, reports.flatMap diagnostics⟩

/-- The total of reports in two parts is the two totals, merged. -/
theorem total_append (first second : List Report) :
    total (first ++ second) = (total first).merge (total second) := by
  simp only [total, merge, List.map_append, List.sum_append, List.flatMap_append]

/-- The total of one report is the report. -/
theorem total_singleton (report : Report) : total [report] = report := by
  simp only [total, List.map_cons, List.map_nil, List.sum_singleton, List.flatMap_singleton]

/-- The total of reports is the first of them, merged with the total of the others. -/
theorem total_cons (report : Report) (rest : List Report) :
    total (report :: rest) = report.merge (total rest) := by
  rw [← List.singleton_append, total_append, total_singleton]

/-- **Reports are merged in any grouping.** -/
theorem merge_assoc (first second third : Report) :
    (first.merge second).merge third = first.merge (second.merge third) := by
  simp only [merge, Nat.add_assoc, List.append_assoc]

/-- To merge an empty report adds nothing. -/
theorem merge_empty (report : Report) : report.merge {} = report := by
  simp only [merge, Nat.add_zero, List.append_nil]

/-- What is merged into an empty report stays as it is. -/
theorem empty_merge (report : Report) : merge {} report = report := by
  simp only [merge, Nat.zero_add, List.nil_append]

end Report

/-- A way to merge reports: none at all, one report, or one way and then another. -/
inductive Merging where
  | nothing
  | single (report : Report)
  | both (first second : Merging)

namespace Merging

/-- The reports that are merged, in order. -/
def reports : Merging → List Report
  | nothing => []
  | single report => [report]
  | both first second => first.reports ++ second.reports

/-- The report that they are merged into. -/
def result : Merging → Report
  | nothing => {}
  | single report => report
  | both first second => first.result.merge second.result

/-- **The grouping of merges does not matter:** the counts are added and the diagnostics joined. -/
theorem result_eq (merging : Merging) : merging.result = Report.total merging.reports := by
  induction merging with
  | nothing => rfl
  | single report => exact (Report.total_singleton report).symm
  | both first second hfirst hsecond => rw [result, reports, Report.total_append, hfirst, hsecond]

end Merging

namespace Corpus

/-- **Checking is compositional.**  A corpus that is cut where a line ends has the counts of both
parts together and the diagnostics of both parts, those of the second further down; malformed lines
and cases that do not pass keep their order.  Reports may be merged in any grouping, and the empty
report changes nothing. -/
theorem check_append (calculator : Calculator) (source : String) {first : String}
    (h : Text.EndsLine first.toList) (second : String) :
    let report := fun text => (check calculator source text).value
    let below := List.map (Diagnostic.below (first.toList.count '\n'))
    ((report (first ++ second)).checked = (report first).checked + (report second).checked ∧
      (report (first ++ second)).passed = (report first).passed + (report second).passed ∧
      (report (first ++ second)).diagnostics.Perm
        ((report first).diagnostics ++ below (report second).diagnostics) ∧
      (∀ text, (report text).diagnostics =
        (read source text).malformed ++ failures calculator source text) ∧
      (read source (first ++ second)).malformed =
        (read source first).malformed ++ below (read source second).malformed ∧
      failures calculator source (first ++ second) =
        failures calculator source first ++ below (failures calculator source second)) ∧
    (∀ merging merging' : Merging, merging.reports = merging'.reports →
      merging.result = merging'.result) ∧
    (∀ merging : Merging, merging.result = Report.total merging.reports) ∧
    ∀ report : Report, report.merge {} = report ∧ Report.merge {} report = report := by
  intro report below
  have hcases : (read source (first ++ second)).cases.length =
      (read source first).cases.length + (read source second).cases.length := by
    rw [read_append source h, List.length_append, List.length_map]
  have hfailures : (failures calculator source (first ++ second)).length =
      (failures calculator source first).length + (failures calculator source second).length := by
    rw [failures_append calculator source h, List.length_append, List.length_map]
  have hle : ∀ text, (failures calculator source text).length ≤ (read source text).cases.length :=
    fun text => List.length_filterMap_le _ _
  have hmalformed : (read source (first ++ second)).malformed =
      (read source first).malformed ++ below (read source second).malformed := by
    rw [read_append source h]
  refine ⟨⟨?_, ?_, ?_, diagnostics_check calculator source, hmalformed,
    failures_append calculator source h second⟩, ?_, Merging.result_eq, ?_⟩
  · simp only [report, checked_eq_length, hcases]
  · have hfirst := hle first
    have hsecond := hle second
    simp only [report, passed_eq_sub, hcases, hfailures]
    omega
  · -- the failures of the first part and the malformed lines of the second change places
    simp only [report, diagnostics_check, hmalformed, failures_append calculator source h,
      List.append_assoc, below, List.map_append]
    exact List.Perm.append_left _ (List.perm_append_comm_assoc _ _ _)
  · intro merging merging' hreports
    rw [merging.result_eq, merging'.result_eq, hreports]
  · exact fun report => ⟨report.merge_empty, report.empty_merge⟩

/-- Each part has a malformed line and a case that does not pass; the second begins on line 3. -/
theorem check_append_two_parts :
    Text.EndsLine "x\n1 => 2\r\n".toList ∧
      (check {} "t" ("x\n1 => 2\r\n" ++ "y\n3 => 4")).value.checked = 2 ∧
      (read "t" ("x\n1 => 2\r\n" ++ "y\n3 => 4")).malformed.map Diagnostic.line =
        [some 1, some 3] ∧
      (failures {} "t" ("x\n1 => 2\r\n" ++ "y\n3 => 4")).map Diagnostic.line =
        [some 2, some 4] := by
  have h : Text.EndsLine "x\n1 => 2\r\n".toList := .inr rfl
  obtain ⟨⟨hchecked, -, -, -, hmalformed, hfailures⟩, -⟩ := check_append {} "t" h "y\n3 => 4"
  refine ⟨h, hchecked.trans rfl, ?_, ?_⟩
  · rw [hmalformed]
    rfl
  · rw [hfailures]
    rfl

end Corpus
end InfixCalc
