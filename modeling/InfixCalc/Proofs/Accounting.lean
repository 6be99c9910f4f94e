/-
# Every significant line is accounted for

A significant line of a corpus is well formed or it is not; if it is well formed, its case passes
or it does not.  Checking the corpus looks at the lines twice, first to read the cases and then to
calculate them, and counts and reports in each round on its own.  Put together, each significant
line is counted as passed or has exactly one diagnostic, which is an error at the line's number
(`Corpus.perm_lines_of_diagnostics`), and nothing else is reported.  So a report without an error
means that every significant line passes (`Corpus.hasErrors_check`).

`Corpus.Passes` says what it means to pass without the functions that check a case.
-/

import InfixCalc.Corpus.Check
import Mathlib.Data.List.Nodup

namespace InfixCalc

/-- The outcome of a calculation is the value or an error of the kind that is expected. -/
def Expectation.MetBy : Expectation → Except CalcError Int32 → Prop
  | value n, outcome => outcome = .ok n
  | error kind, outcome => ∃ cause, outcome = .error cause ∧ cause.kind = kind

/-- A case accepts the outcomes that meet its expectation. -/
theorem CorpusCase.accepts_iff {case : CorpusCase} {outcome : Except CalcError Int32} :
    case.accepts outcome = true ↔ case.expected.MetBy outcome := by
  obtain ⟨line, expression, expected⟩ := case
  cases expected with
  | value expected =>
    cases outcome with
    | ok actual =>
      have hbeq : (expected == actual) = true ↔ actual = expected := beq_iff_eq.trans eq_comm
      exact ⟨fun h => congrArg Except.ok (hbeq.1 h), fun h => hbeq.2 (Except.ok.inj h)⟩
    | error cause => simp [accepts, Expectation.MetBy]
  | error kind =>
    cases outcome with
    | ok actual => simp [accepts, Expectation.MetBy]
    | error cause => simp [accepts, Expectation.MetBy]

namespace Corpus

/-- The numbered line is a case that can be read. -/
def WellFormed (line : List Char × Nat) : Prop := ∃ case, readCase line.2 line.1 = .ok case

/-- The numbered line is a case that can be read, and the calculation of its expression has the
outcome that it expects. -/
def Passes (calculator : Calculator) (line : List Char × Nat) : Prop :=
  ∃ case, readCase line.2 line.1 = .ok case ∧
    case.expected.MetBy (calculator.calculate case.expression).value

/-- The diagnostic of a numbered line whose case does not pass. -/
def failure? (calculator : Calculator) (source : String) (line : List Char × Nat) :
    Option Diagnostic :=
  (case? line).bind fun case => (case.check calculator source).value

/-- The diagnostics of the cases of a text that do not pass. -/
def failures (calculator : Calculator) (source text : String) : List Diagnostic :=
  (read source text).cases.filterMap fun case => (case.check calculator source).value

/-- The diagnostic is an error of this source at this line. -/
def ReportsLine (source : String) (line : List Char × Nat) (diagnostic : Diagnostic) : Prop :=
  diagnostic.severity = .error ∧ diagnostic.source = source ∧ diagnostic.line = some line.2

section Line

variable {calculator : Calculator} {source : String} {line : List Char × Nat}

/-- The case of a line is there if the line is well formed. -/
theorem isSome_case?_iff : (case? line).isSome ↔ WellFormed line := by
  unfold case? WellFormed
  cases readCase line.2 line.1 <;> simp

/-- The problem of a line is there if the line is not well formed. -/
theorem isSome_problem?_iff : (problem? source line).isSome ↔ ¬ WellFormed line := by
  unfold problem? WellFormed
  cases readCase line.2 line.1 <;> simp

/-- Only a line that is well formed can pass. -/
theorem Passes.wellFormed (h : Passes calculator line) : WellFormed line := by
  obtain ⟨case, hread, -⟩ := h
  exact ⟨case, hread⟩

/-- The case of a line is the one that is read from it. -/
theorem case?_of_readCase {case : CorpusCase} (h : readCase line.2 line.1 = .ok case) :
    case? line = some case := by
  rw [case?, h]

/-- A line passes if its case accepts what the calculator gives. -/
theorem passes_iff_of_readCase {case : CorpusCase} (h : readCase line.2 line.1 = .ok case) :
    Passes calculator line ↔ case.accepts (calculator.calculate case.expression).value = true := by
  rw [CorpusCase.accepts_iff]
  constructor
  · rintro ⟨found, hread, hmet⟩
    obtain rfl : case = found := Except.ok.inj (h.symm.trans hread)
    exact hmet
  · exact fun hmet => ⟨case, h, hmet⟩

/-- The second round reports the lines that are well formed and do not pass. -/
theorem isSome_failure?_iff :
    (failure? calculator source line).isSome ↔ WellFormed line ∧ ¬ Passes calculator line := by
  cases hread : readCase line.2 line.1 with
  | error cause =>
    have hmalformed : ¬ WellFormed line := by
      rintro ⟨case, hcase⟩
      cases hread.symm.trans hcase
    have hcase : case? line = none := by rw [case?, hread]
    simp [failure?, hcase, hmalformed]
  | ok case =>
    rw [failure?, case?_of_readCase hread, Option.bind_some, passes_iff_of_readCase hread,
      CorpusCase.check]
    have hwellFormed : WellFormed line := ⟨case, hread⟩
    cases case.accepts (calculator.calculate case.expression).value <;> simp [hwellFormed]

instance : Decidable (WellFormed line) := decidable_of_iff _ isSome_case?_iff

instance : Decidable (Passes calculator line) :=
  match hread : readCase line.2 line.1 with
  | .ok _ => decidable_of_iff _ (passes_iff_of_readCase hread).symm
  | .error _ => .isFalse fun ⟨_, hcase, _⟩ => by cases hread.symm.trans hcase

/-- A case has the number of its line. -/
theorem line_of_readCase {number : Nat} {chars : List Char} {case : CorpusCase}
    (h : readCase number chars = .ok case) : case.line = number := by
  unfold readCase at h
  repeat' split at h
  all_goals cases h
  rfl

/-- The problem of a line is reported at that line. -/
theorem reportsLine_of_problem? {diagnostic : Diagnostic}
    (h : problem? source line = some diagnostic) : ReportsLine source line diagnostic := by
  unfold problem? at h
  split at h
  · cases h
  · cases h
    exact ⟨rfl, rfl, rfl⟩

/-- A mismatch is reported at the line of its case. -/
theorem reportsLine_mismatch (case : CorpusCase) (chars : List Char) (source : String)
    (outcome : Except CalcError Int32) :
    ReportsLine source (chars, case.line) (case.mismatch source outcome) := by
  cases outcome <;> exact ⟨rfl, rfl, rfl⟩

/-- The failure of a line is reported at that line. -/
theorem reportsLine_of_failure? {diagnostic : Diagnostic}
    (h : failure? calculator source line = some diagnostic) :
    ReportsLine source line diagnostic := by
  obtain ⟨case, hcase, hcheck⟩ := Option.bind_eq_some_iff.1 h
  unfold case? at hcase
  split at hcase
  · rename_i found hread
    obtain rfl : found = case := Option.some.inj hcase
    rw [CorpusCase.check] at hcheck
    split at hcheck
    · cases hcheck
    · obtain rfl := Option.some.inj hcheck
      have hline : line = (line.1, found.line) := by rw [line_of_readCase hread]
      rw [hline]
      exact reportsLine_mismatch found line.1 source _
  · cases hcase

end Line

/-- The significant lines are numbered by their places in the text, from one. -/
theorem mem_significantLines {text line : List Char} {number : Nat} :
    (line, number + 1) ∈ significantLines text ↔
      (Text.lines text)[number]? = some line ∧ isSignificant line := by
  rw [significantLines, List.mem_filter, List.mk_mem_zipIdx_iff_le_and_getElem?_sub,
    Nat.add_sub_cancel]
  simp

/-- Significant lines are listed from the first to the last. -/
theorem pairwise_significantLines (text : List Char) :
    (significantLines text).Pairwise fun a b => a.2 < b.2 := by
  refine List.Pairwise.filter _ (List.pairwise_map.1 ?_)
  rw [List.zipIdx_map_snd]
  exact List.pairwise_lt_range' 1

/-- No two significant lines have the same number. -/
theorem eq_of_mem_significantLines {text : List Char} {a b : List Char × Nat}
    (ha : a ∈ significantLines text) (hb : b ∈ significantLines text) (h : a.2 = b.2) : a = b := by
  have ha' := List.mk_mem_zipIdx_iff_le_and_getElem?_sub.1 (List.mem_filter.1 ha).1
  have hb' := List.mk_mem_zipIdx_iff_le_and_getElem?_sub.1 (List.mem_filter.1 hb).1
  refine Prod.ext ?_ h
  rw [h] at ha'
  exact Option.some.inj (ha'.2.symm.trans hb'.2)

/-- What is malformed in a corpus are the problems of its significant lines, in their order. -/
theorem malformed_eq (source text : String) :
    (read source text).malformed =
      (significantLines text.toList).filterMap (problem? source) := rfl

/-- What fails in a corpus are the failures of its significant lines, in their order. -/
theorem failures_eq (calculator : Calculator) (source text : String) :
    failures calculator source text =
      (significantLines text.toList).filterMap (failure? calculator source) :=
  List.filterMap_filterMap

/-- Diagnostics of lines, each at most one, have the numbers of the lines that they are for. -/
theorem map_line_filterMap {source : String} {f : List Char × Nat → Option Diagnostic}
    (hf : ∀ line diagnostic, f line = some diagnostic → ReportsLine source line diagnostic)
    (lines : List (List Char × Nat)) :
    (lines.filterMap f).map Diagnostic.line =
      (lines.filter fun line => (f line).isSome).map fun line => some line.2 := by
  induction lines with
  | nil => rfl
  | cons line lines ih =>
    cases hline : f line with
    | none =>
      rw [List.filterMap_cons_none hline, List.filter_cons_of_neg (by simp [hline]), ih]
    | some diagnostic =>
      rw [List.filterMap_cons_some hline, List.filter_cons_of_pos (by simp [hline]), List.map_cons,
        List.map_cons, ih, (hf line diagnostic hline).2.2]

section Report

variable (calculator : Calculator) (source text : String)

/-- **A report lists the malformed lines and then the cases that do not pass.** -/
theorem diagnostics_check :
    (check calculator source text).value.diagnostics =
      (read source text).malformed ++ failures calculator source text := by
  simp only [check, failures, List.filterMap_map, Function.comp_def]

/-- The malformed lines are reported in their order, each once. -/
theorem map_line_malformed :
    (read source text).malformed.map Diagnostic.line =
      ((significantLines text.toList).filter (¬ WellFormed ·)).map fun line => some line.2 := by
  rw [malformed_eq, map_line_filterMap fun line diagnostic => reportsLine_of_problem?]
  simp only [Bool.eq_iff_iff.2 (isSome_problem?_iff.trans decide_eq_true_iff.symm)]

/-- The lines that fail are reported in their order, each once. -/
theorem map_line_failures :
    (failures calculator source text).map Diagnostic.line =
      ((significantLines text.toList).filter
        fun line => WellFormed line ∧ ¬ Passes calculator line).map fun line => some line.2 := by
  rw [failures_eq, map_line_filterMap fun line diagnostic => reportsLine_of_failure?]
  simp only [Bool.eq_iff_iff.2 (isSome_failure?_iff.trans decide_eq_true_iff.symm)]

/-- **The lines of the diagnostics are those that do not pass,** each as often as in the text. -/
theorem perm_lines_of_diagnostics :
    ((check calculator source text).value.diagnostics.map Diagnostic.line).Perm
      (((significantLines text.toList).filter (¬ Passes calculator ·)).map
        fun line => some line.2) := by
  rw [diagnostics_check, List.map_append, map_line_malformed, map_line_failures, ← List.map_append]
  refine List.Perm.map _ ?_
  -- what does not pass is malformed, or it is well formed and does not pass
  have hperm := List.filter_append_perm (fun line => decide (¬ WellFormed line))
    ((significantLines text.toList).filter (¬ Passes calculator ·))
  have hmalformed : ∀ line, (decide (¬ WellFormed line) && decide (¬ Passes calculator line)) =
      decide (¬ WellFormed line) := by
    intro line
    have hpasses : Passes calculator line → WellFormed line := Passes.wellFormed
    by_cases hline : WellFormed line <;> simp_all
  have hfailed : ∀ line, (!decide (¬ WellFormed line) && decide (¬ Passes calculator line)) =
      decide (WellFormed line ∧ ¬ Passes calculator line) := by
    intro line
    by_cases hline : WellFormed line <;> simp [hline]
  simpa only [List.filter_filter, hmalformed, hfailed] using hperm

/-- Every diagnostic is an error of this source at a significant line. -/
theorem exists_reportsLine {diagnostic : Diagnostic}
    (h : diagnostic ∈ (check calculator source text).value.diagnostics) :
    ∃ line ∈ significantLines text.toList, ReportsLine source line diagnostic := by
  rw [diagnostics_check, malformed_eq, failures_eq, List.mem_append, List.mem_filterMap,
    List.mem_filterMap] at h
  rcases h with ⟨line, hmem, hline⟩ | ⟨line, hmem, hline⟩
  · exact ⟨line, hmem, reportsLine_of_problem? hline⟩
  · exact ⟨line, hmem, reportsLine_of_failure? hline⟩

/-- **As many errors are reported as lines do not pass.** -/
theorem count_error_check :
    Diagnostic.count .error (check calculator source text).value.diagnostics =
      (significantLines text.toList).countP (¬ Passes calculator ·) := by
  have hlength := (perm_lines_of_diagnostics calculator source text).length_eq
  rw [List.length_map, List.length_map, ← List.countP_eq_length_filter] at hlength
  rw [← hlength, Diagnostic.count, List.countP_eq_length]
  intro diagnostic hmem
  obtain ⟨line, -, hline⟩ := exists_reportsLine calculator source text hmem
  rw [hline.1]
  rfl

/-- **A report without an error means that every significant line passes.** -/
theorem hasErrors_check :
    Diagnostic.hasErrors (check calculator source text).value.diagnostics = false ↔
      ∀ line ∈ significantLines text.toList, Passes calculator line := by
  rw [Diagnostic.hasErrors, count_error_check, decide_eq_false_iff_not, Nat.not_lt,
    Nat.le_zero, List.countP_eq_zero]
  simp

/-- Every case that is read is counted as checked. -/
theorem checked_eq_length :
    (check calculator source text).value.checked = (read source text).cases.length := by
  simp only [check, List.length_map]

/-- The cases that do not fail are counted as passed. -/
theorem passed_eq_sub :
    (check calculator source text).value.passed =
      (read source text).cases.length - (failures calculator source text).length := by
  simp only [check, failures, List.length_map, List.filterMap_map, Function.comp_def]

/-- The cases that are checked are the lines that are well formed. -/
theorem checked_check :
    (check calculator source text).value.checked =
      (significantLines text.toList).countP (WellFormed ·) := by
  have hcases : (read source text).cases.length =
      (significantLines text.toList).countP fun line => (case? line).isSome :=
    List.length_filterMap_eq_countP
  simp only [checked_eq_length, hcases,
    Bool.eq_iff_iff.2 (isSome_case?_iff.trans decide_eq_true_iff.symm)]

/-- The cases that pass are the lines that pass. -/
theorem passed_check :
    (check calculator source text).value.passed =
      (significantLines text.toList).countP (Passes calculator ·) := by
  have hfailures : (failures calculator source text).length =
      (significantLines text.toList).countP
        fun line => WellFormed line ∧ ¬ Passes calculator line := by
    rw [← List.length_map (f := Diagnostic.line), map_line_failures, List.length_map,
      List.countP_eq_length_filter]
  -- the well-formed lines are those that pass and those that fail
  have hsplit := List.countP_eq_countP_filter_add (significantLines text.toList)
    (fun line => decide (WellFormed line)) (fun line => decide (Passes calculator line))
  have hpasses : ∀ line, (decide (WellFormed line) && decide (Passes calculator line)) =
      decide (Passes calculator line) := by
    intro line
    have hwellFormed : Passes calculator line → WellFormed line := Passes.wellFormed
    by_cases hline : Passes calculator line <;> simp_all
  have hfails : ∀ line, (decide (WellFormed line) && !decide (Passes calculator line)) =
      decide (WellFormed line ∧ ¬ Passes calculator line) := by
    intro line
    by_cases hline : WellFormed line <;> simp [hline]
  rw [passed_eq_sub, ← checked_eq_length calculator, hfailures, checked_check, hsplit,
    List.countP_filter, List.countP_filter]
  simp only [hpasses, hfails, Nat.add_sub_cancel_right]

/-- A line that does not pass has one diagnostic, and a line that passes has none. -/
theorem countP_line_check {line : List Char × Nat} (h : line ∈ significantLines text.toList) :
    ((check calculator source text).value.diagnostics.countP
        fun diagnostic => diagnostic.line = some line.2) =
      if Passes calculator line then 0 else 1 := by
  have hcount : ∀ diagnostics : List Diagnostic,
      (diagnostics.countP fun diagnostic => diagnostic.line = some line.2) =
        (diagnostics.map Diagnostic.line).count (some line.2) := by
    intro diagnostics
    rw [List.count, List.countP_map]
    exact List.countP_congr fun diagnostic _ => by simp
  have hnodup : (((significantLines text.toList).filter (¬ Passes calculator ·)).map
      fun line => some line.2).Nodup := by
    refine List.pairwise_map.2 (((pairwise_significantLines _).filter _).imp ?_)
    intro a b hlt heq
    exact Nat.ne_of_lt hlt (Option.some.inj heq)
  -- a line is known by its number
  have hmem : (some line.2 ∈ ((significantLines text.toList).filter (¬ Passes calculator ·)).map
      fun line => some line.2) ↔ ¬ Passes calculator line := by
    simp only [List.mem_map, List.mem_filter, decide_eq_true_eq, Option.some.injEq]
    constructor
    · rintro ⟨found, ⟨hfound, hfails⟩, hnumber⟩
      rwa [← eq_of_mem_significantLines hfound h hnumber]
    · exact fun hfails => ⟨line, ⟨h, hfails⟩, rfl⟩
  rw [hcount, (perm_lines_of_diagnostics calculator source text).count_eq, hnodup.count]
  simp only [hmem, ite_not]

end Report

/-- **Every significant line is accounted for once.**  It passes, or it has exactly one diagnostic,
an error of the source at its number; there are no other diagnostics.  So all lines are counted, the
malformed lines are reported before the cases that do not pass and both in the order of the text,
and no error is reported exactly if every significant line passes. -/
theorem check_accounts_for_lines (calculator : Calculator) (source text : String) :
    let report := (check calculator source text).value
    let lines := significantLines text.toList
    (∀ number line, (Text.lines text.toList)[number]? = some line → isSignificant line →
      (report.diagnostics.countP fun diagnostic => diagnostic.line = some (number + 1)) =
        if Passes calculator (line, number + 1) then 0 else 1) ∧
    (∀ diagnostic ∈ report.diagnostics, ∃ line ∈ lines, ReportsLine source line diagnostic) ∧
    report.checked = lines.countP (WellFormed ·) ∧
    report.passed = lines.countP (Passes calculator ·) ∧
    report.passed ≤ report.checked ∧
    Diagnostic.count .error report.diagnostics = lines.length - report.passed ∧
    (∃ malformed failed, report.diagnostics = malformed ++ failed ∧
      malformed.map Diagnostic.line =
        (lines.filter (¬ WellFormed ·)).map (fun line => some line.2) ∧
      failed.map Diagnostic.line =
        (lines.filter fun line => WellFormed line ∧ ¬ Passes calculator line).map
          fun line => some line.2) ∧
    (lines.Pairwise fun a b => a.2 < b.2) ∧
    (Diagnostic.hasErrors report.diagnostics = false ↔ ∀ line ∈ lines, Passes calculator line) := by
  intro report lines
  have hpassed : report.passed ≤ report.checked := by
    rw [passed_check, checked_check]
    refine List.countP_mono_left fun line _ hpasses => ?_
    exact decide_eq_true (Passes.wellFormed (of_decide_eq_true hpasses))
  have herrors : Diagnostic.count .error report.diagnostics = lines.length - report.passed := by
    have hlength := List.length_eq_countP_add_countP (l := lines) (Passes calculator ·)
    simp only [decide_eq_true_eq] at hlength
    rw [count_error_check, passed_check, hlength, Nat.add_sub_cancel_left]
  exact ⟨fun number line hline hsignificant =>
      countP_line_check calculator source text (mem_significantLines.2 ⟨hline, hsignificant⟩),
    fun diagnostic => exists_reportsLine calculator source text,
    checked_check calculator source text, passed_check calculator source text, hpassed, herrors,
    ⟨_, _, diagnostics_check calculator source text, map_line_malformed source text,
      map_line_failures calculator source text⟩,
    pairwise_significantLines _, hasErrors_check calculator source text⟩

end Corpus
end InfixCalc
