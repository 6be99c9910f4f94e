/-
# What the command decides

The command finds the corpus files at or below a path, checks each of them and puts the reports
together.  It ends in one of three ways (`CheckCommand.Ends`): it fails before anything is reported,
since some path is too long to be followed or some corpus is not UTF-8 text; it finds no corpus; or
it writes the total of the reports.  Every corpus file of the tree takes part
(`CheckCommand.mem_corpusFiles`), and the loop over the files gives their total
(`CheckCommand.reportAfter_eq_ok_iff`).  So the exit code is zero exactly if every significant line
of every corpus passes (`CheckCommand.exitCode_run`).

The limit on the length of a path is part of the verdict: a path that leads somewhere may be so long
that no file below it can be opened.
-/

import InfixCalc.Corpus.Command
import InfixCalc.Proofs.Accounting
import InfixCalc.Proofs.Composition
import InfixCalc.Proofs.Places
import Mathlib.Data.List.Forall2

namespace InfixCalc

/-- What is written begins with a report. -/
def CommandOutcome.ShowsReport (outcome : CommandOutcome) : Prop :=
  CheckCommand.rule.toList <+: outcome.stderr.toList

/-- The rule is a line of dashes. -/
theorem CheckCommand.toList_rule : rule.toList = List.replicate 53 '─' := String.toList_ofList

/-- What begins with a report begins with a dash. -/
theorem CommandOutcome.ShowsReport.head?_stderr {outcome : CommandOutcome}
    (h : outcome.ShowsReport) : outcome.stderr.toList.head? = some '─' := by
  obtain ⟨rest, hrest⟩ := h
  rw [← hrest, CheckCommand.toList_rule]
  rfl

namespace CheckCommand

/-- The settings that a run takes: those of a file, or the default settings. -/
def settingsOf (tree : FileTree) : Option Path → Settings
  | some settingsPath => (Settings.load tree settingsPath).value
  | none => {}

/-- The names lead to a corpus file with these bytes. -/
def HasCorpus (path : Path) (tree : FileTree) (below : List FileName) (bytes : ByteArray) : Prop :=
  tree.Holds below (.file bytes) ∧ isCorpusName (lastName path below) = true

/-- The path to each directory and to each corpus file is short enough to be followed. -/
structure WithinLimits (path : Path) (tree : FileTree) : Prop where
  directory : ∀ below entries, tree.Holds below (.directory entries) →
    (pathTo path below).length ≤ Path.maxBytes
  corpus : ∀ below bytes, HasCorpus path tree below bytes →
    (pathTo path below).length ≤ Path.maxBytes

/-- Every corpus file is a text whose significant lines all pass. -/
def AllPass (calculator : Calculator) (path : Path) (tree : FileTree) : Prop :=
  ∀ below bytes, HasCorpus path tree below bytes → ∃ text, decodeUtf8 bytes = .ok text ∧
    ∀ line ∈ Corpus.significantLines text.toList, Corpus.Passes calculator line

/-- A source and a text are what is read from a file. -/
def Reads (path : Path) (file : List FileName × ByteArray) (corpus : String × String) : Prop :=
  corpus.1 = (pathTo path file.1).text ∧ decodeUtf8 file.2 = .ok corpus.2

/-- The reports of corpora, each a source and a text. -/
def reports (calculator : Calculator) (corpora : List (String × String)) : List Report :=
  corpora.map fun corpus => (Corpus.check calculator corpus.1 corpus.2).value

/-- The outcome of a run that writes a report. -/
def printed (report : Report) : CommandOutcome :=
  if Diagnostic.hasErrors report.diagnostics then failure (reportText report) .corpusErrors
  else ⟨0, reportText report⟩

/-- How a run on the tree at a path ends. -/
inductive Ends (calculator : Calculator) (path : Path) (tree : FileTree) : CommandOutcome → Prop
  | fails (cause : CommandError)
      (hcause : WithinLimits path tree →
        ∃ below bytes, HasCorpus path tree below bytes ∧ ∀ text, decodeUtf8 bytes ≠ .ok text) :
      Ends calculator path tree (failure "" cause)
  | nothing (hlimits : WithinLimits path tree)
      (hnone : ∀ below bytes, ¬ HasCorpus path tree below bytes) :
      Ends calculator path tree ⟨0, "未找到用例集文件（.expr）\n"⟩
  | report (corpora : List (String × String)) (hlimits : WithinLimits path tree)
      (hreads : List.Forall₂ (Reads path) (corpusFiles path tree) corpora)
      (hsome : ∃ below bytes, HasCorpus path tree below bytes) :
      Ends calculator path tree (printed (Report.total (reports calculator corpora)))

section Files

variable {path : Path} {tree : FileTree} {calculator : Calculator}

/-- **Every corpus file of a tree is found,** and nothing else. -/
theorem mem_corpusFiles {below : List FileName} {bytes : ByteArray} :
    (below, bytes) ∈ corpusFiles path tree ↔ HasCorpus path tree below bytes := by
  rw [corpusFiles, List.mem_filter, FileTree.mem_files]
  rfl

/-- A path is short enough if it has no more bytes than allowed. -/
theorem isTooLong_eq_false_iff {path : Path} :
    Path.isTooLong path = false ↔ path.length ≤ Path.maxBytes := by
  rw [Path.isTooLong, decide_eq_false_iff_not, Nat.not_lt]

/-- All directories can be opened if the path to each of them is short enough. -/
theorem unopened?_eq_none_iff :
    unopened? path tree = none ↔ ∀ below entries, tree.Holds below (.directory entries) →
      (pathTo path below).length ≤ Path.maxBytes := by
  simp only [unopened?, List.find?_eq_none, List.forall_mem_map, FileTree.mem_directories,
    Bool.not_eq_true, isTooLong_eq_false_iff, forall_exists_index]

/-- A corpus is read if its path is short enough and its bytes are UTF-8 text. -/
theorem readText_eq_ok_iff {bytes : ByteArray} {text : String} :
    readText path bytes = .ok text ↔
      path.length ≤ Path.maxBytes ∧ decodeUtf8 bytes = .ok text := by
  rw [readText, ← isTooLong_eq_false_iff]
  cases Path.isTooLong path <;> simp

/-- The total over further corpora takes in one corpus after the other. -/
theorem merge_total_reports_cons (report : Report) (corpus : String × String)
    (corpora : List (String × String)) :
    report.merge (Report.total (reports calculator (corpus :: corpora))) =
      (report.merge (Corpus.check calculator corpus.1 corpus.2).value).merge
        (Report.total (reports calculator corpora)) := by
  rw [Report.merge_assoc, ← Report.total_cons]
  rfl

/-- **The loop over the files** goes through if each of them can be opened and read, and then it
adds the total of their reports. -/
theorem reportAfter_eq_ok_iff {files : List (List FileName × ByteArray)} {report result : Report} :
    reportAfter calculator path report files = .ok result ↔
      (∀ file ∈ files, (pathTo path file.1).length ≤ Path.maxBytes) ∧
        ∃ corpora, List.Forall₂ (Reads path) files corpora ∧
          result = report.merge (Report.total (reports calculator corpora)) := by
  -- the report so far changes from file to file
  induction files generalizing report with
  | nil =>
    rw [reportAfter, Except.ok.injEq]
    constructor
    · rintro rfl
      exact ⟨fun file hmem => absurd hmem List.not_mem_nil, [], .nil, report.merge_empty.symm⟩
    · rintro ⟨-, corpora, hreads, rfl⟩
      cases hreads
      exact report.merge_empty.symm
  | cons file files ih =>
    obtain ⟨below, bytes⟩ := file
    rw [List.forall_mem_cons]
    cases htext : readText (pathTo path below) bytes with
    | error cause =>
      simp only [reportAfter, htext, reduceCtorEq, false_iff]
      rintro ⟨⟨hsize, -⟩, corpora, hreads, -⟩
      cases hreads with
      | cons hread _ => cases htext.symm.trans (readText_eq_ok_iff.2 ⟨hsize, hread.2⟩)
    | ok text =>
      obtain ⟨hsize, hdecode⟩ := readText_eq_ok_iff.1 htext
      simp only [reportAfter, htext, ih]
      constructor
      · rintro ⟨hfiles, corpora, hreads, rfl⟩
        refine ⟨⟨hsize, hfiles⟩, ((pathTo path below).text, text) :: corpora,
          .cons ⟨rfl, hdecode⟩ hreads, ?_⟩
        exact (merge_total_reports_cons report ((pathTo path below).text, text) corpora).symm
      · rintro ⟨⟨-, hfiles⟩, corpora, hreads, rfl⟩
        cases hreads with
        | @cons _ corpus _ corpora hread hreads =>
          obtain ⟨source, found⟩ := corpus
          obtain ⟨rfl, hfound⟩ := hread
          obtain rfl : text = found := Except.ok.inj (hdecode.symm.trans hfound)
          exact ⟨hfiles, corpora, hreads, merge_total_reports_cons report (_, text) corpora⟩

/-- What holds of all texts that are read holds of the text of each file. -/
theorem forall_text_iff {files : List (List FileName × ByteArray)}
    {corpora : List (String × String)} (hreads : List.Forall₂ (Reads path) files corpora)
    (P : String → Prop) :
    (∀ corpus ∈ corpora, P corpus.2) ↔
      ∀ file ∈ files, ∃ text, decodeUtf8 file.2 = .ok text ∧ P text := by
  induction hreads with
  | nil => simp
  | @cons file corpus files corpora hread _ ih =>
    rw [List.forall_mem_cons, List.forall_mem_cons, ih, hread.2]
    simp

/-- Where every file is text, all of them are read. -/
theorem exists_forall₂_reads {files : List (List FileName × ByteArray)}
    (h : ∀ file ∈ files, ∃ text, decodeUtf8 file.2 = .ok text) :
    ∃ corpora, List.Forall₂ (Reads path) files corpora := by
  induction files with
  | nil => exact ⟨[], .nil⟩
  | cons file files ih =>
    obtain ⟨⟨text, htext⟩, hfiles⟩ := List.forall_mem_cons.1 h
    obtain ⟨corpora, hreads⟩ := ih hfiles
    exact ⟨((pathTo path file.1).text, text) :: corpora, .cons ⟨rfl, htext⟩ hreads⟩

/-- **A run ends in one of three ways.** -/
theorem ends_runOn (settings : Settings) (path : Path) (tree : FileTree) :
    Ends ⟨settings⟩ path tree (runOn settings path tree) := by
  cases hunopened : unopened? path tree with
  | some place =>
    simp only [runOn, hunopened]
    refine .fails _ fun hlimits => ?_
    cases hunopened.symm.trans (unopened?_eq_none_iff.2 hlimits.directory)
  | none =>
    have hdirectory := unopened?_eq_none_iff.1 hunopened
    cases hfiles : corpusFiles path tree with
    | nil =>
      -- no corpus was found, so none is too deep
      have hnone : ∀ below bytes, ¬ HasCorpus path tree below bytes := by
        intro below bytes hcorpus
        have hmem := mem_corpusFiles.2 hcorpus
        rw [hfiles] at hmem
        cases hmem
      simp only [runOn, hunopened, hfiles]
      exact .nothing ⟨hdirectory, fun below bytes h => absurd h (hnone below bytes)⟩ hnone
    | cons file files =>
      have hsome : ∃ below bytes, HasCorpus path tree below bytes :=
        ⟨file.1, file.2, mem_corpusFiles.1 (hfiles ▸ List.mem_cons_self)⟩
      cases hreport : reportAfter ⟨settings⟩ path {} (corpusFiles path tree) with
      | error cause =>
        have hrun : runOn settings path tree = failure "" (.unreadable cause) := by
          rw [hfiles] at hreport
          simp only [runOn, hunopened, hfiles, hreport]
        rw [hrun]
        refine .fails _ fun hlimits => ?_
        -- otherwise every file could be read, and the loop would have gone through
        by_contra hall
        push Not at hall
        obtain ⟨corpora, hreads⟩ := exists_forall₂_reads fun file hmem =>
          hall file.1 file.2 (mem_corpusFiles.1 hmem)
        cases hreport.symm.trans (reportAfter_eq_ok_iff.2
          ⟨fun file hmem => hlimits.corpus _ _ (mem_corpusFiles.1 hmem), corpora, hreads, rfl⟩)
      | ok report =>
        obtain ⟨hsizes, corpora, hreads, htotal⟩ := reportAfter_eq_ok_iff.1 hreport
        rw [Report.empty_merge] at htotal
        have hrun : runOn settings path tree = printed report := by
          rw [hfiles] at hreport
          simp only [runOn, hunopened, hfiles, hreport, printed]
        rw [hrun, htotal]
        exact .report corpora
          ⟨hdirectory, fun below bytes h => hsizes _ (mem_corpusFiles.2 h)⟩ hreads hsome

end Files

section Outcome

variable {calculator : Calculator} {path : Path} {tree : FileTree} {outcome : CommandOutcome}

/-- **The errors of all reports** are the significant lines that do not pass. -/
theorem count_error_total (calculator : Calculator) (corpora : List (String × String)) :
    Diagnostic.count .error (Report.total (reports calculator corpora)).diagnostics =
      (corpora.map fun corpus =>
        (Corpus.significantLines corpus.2.toList).countP (¬ Corpus.Passes calculator ·)).sum := by
  have hcount : ∀ corpus : String × String,
      ((Corpus.check calculator corpus.1 corpus.2).value.diagnostics.countP
        fun diagnostic => diagnostic.severity == .error) =
        (Corpus.significantLines corpus.2.toList).countP (¬ Corpus.Passes calculator ·) :=
    fun corpus => Corpus.count_error_check calculator corpus.1 corpus.2
  simp only [Report.total, reports, Diagnostic.count, List.flatMap_map, List.countP_flatMap,
    Function.comp_def, hcount]

/-- A run that fails says so. -/
theorem exitCode_failure_ne_zero {written : String} {cause : CommandError} :
    (failure written cause).exitCode ≠ 0 := by
  have hone : (1 : UInt32) ≠ 0 := by decide
  exact hone

/-- A run that writes a report succeeds if no diagnostic is an error. -/
theorem exitCode_printed (report : Report) :
    (printed report).exitCode = 0 ↔ Diagnostic.count .error report.diagnostics = 0 := by
  rw [printed, Diagnostic.hasErrors]
  split
  · rename_i herrors
    exact iff_of_false exitCode_failure_ne_zero (Nat.pos_iff_ne_zero.1 (of_decide_eq_true herrors))
  · rename_i herrors
    exact iff_of_true rfl (Nat.eq_zero_of_not_pos fun h => herrors (decide_eq_true h))

/-- **A run that writes a report** succeeds if every significant line passes. -/
theorem exitCode_printed_total (corpora : List (String × String)) :
    (printed (Report.total (reports calculator corpora))).exitCode = 0 ↔
      ∀ corpus ∈ corpora, ∀ line ∈ Corpus.significantLines corpus.2.toList,
        Corpus.Passes calculator line := by
  simp only [exitCode_printed, count_error_total, List.sum_eq_zero_iff_forall_eq_nat,
    List.forall_mem_map, List.countP_eq_zero, decide_eq_true_eq, not_not]

/-- What is written for a report begins with it. -/
theorem showsReport_printed (report : Report) : (printed report).ShowsReport := by
  unfold printed CommandOutcome.ShowsReport
  split <;>
    simp only [failure, reportText, String.toList_append, List.append_assoc, List.prefix_append]

/-- A run that only fails writes no report. -/
theorem not_showsReport_failure (cause : CommandError) :
    ¬ (failure "" cause).ShowsReport := by
  intro h
  have hfirst : (failure "" cause).stderr.toList.head? = some 'x' := by
    rw [failure, String.append_assoc, String.append_assoc, String.toList_append,
      String.toList_append]
    rfl
  cases hfirst.symm.trans h.head?_stderr

/-- **The exit code of a run** is zero if all paths can be followed and every significant line of
every corpus passes. -/
theorem Ends.exitCode_eq_zero_iff (h : Ends calculator path tree outcome) :
    outcome.exitCode = 0 ↔ WithinLimits path tree ∧ AllPass calculator path tree := by
  cases h with
  | fails cause hcause =>
    refine iff_of_false exitCode_failure_ne_zero ?_
    rintro ⟨hlimits, hall⟩
    obtain ⟨below, bytes, hcorpus, hbytes⟩ := hcause hlimits
    obtain ⟨text, htext, -⟩ := hall below bytes hcorpus
    exact hbytes text htext
  | nothing hlimits hnone =>
    exact iff_of_true rfl ⟨hlimits, fun below bytes h => absurd h (hnone below bytes)⟩
  | report corpora hlimits hreads =>
    rw [exitCode_printed_total, forall_text_iff hreads fun text =>
      ∀ line ∈ Corpus.significantLines text.toList, Corpus.Passes calculator line]
    simp only [AllPass, hlimits, true_and, Prod.forall, mem_corpusFiles]

/-- **A report is written** if all paths can be followed, there is a corpus, and all corpora are
UTF-8 text. -/
theorem Ends.showsReport_iff (h : Ends calculator path tree outcome) :
    outcome.ShowsReport ↔
      WithinLimits path tree ∧ (∃ below bytes, HasCorpus path tree below bytes) ∧
      ∀ below bytes, HasCorpus path tree below bytes → ∃ text, decodeUtf8 bytes = .ok text := by
  cases h with
  | fails cause hcause =>
    refine iff_of_false (not_showsReport_failure cause) ?_
    rintro ⟨hlimits, -, htexts⟩
    obtain ⟨below, bytes, hcorpus, hbytes⟩ := hcause hlimits
    obtain ⟨text, htext⟩ := htexts below bytes hcorpus
    exact hbytes text htext
  | nothing hlimits hnone =>
    refine iff_of_false (fun hshows => by cases hshows.head?_stderr) ?_
    rintro ⟨-, ⟨below, bytes, hcorpus⟩, -⟩
    exact hnone below bytes hcorpus
  | report corpora hlimits hreads hsome =>
    refine iff_of_true (showsReport_printed _) ⟨hlimits, hsome, fun below bytes hcorpus => ?_⟩
    have htexts := (forall_text_iff hreads fun _ => True).1 fun _ _ => trivial
    obtain ⟨text, htext, -⟩ := htexts _ (mem_corpusFiles.2 hcorpus)
    exact ⟨text, htext⟩

/-- If a report is written, it is the total of the reports of all corpora. -/
theorem Ends.eq_printed (h : Ends calculator path tree outcome) (hshows : outcome.ShowsReport) :
    ∃ corpora, List.Forall₂ (Reads path) (corpusFiles path tree) corpora ∧
      outcome = printed (Report.total (reports calculator corpora)) := by
  cases h with
  | fails cause => exact absurd hshows (not_showsReport_failure cause)
  | nothing => cases hshows.head?_stderr
  | report corpora hlimits hreads => exact ⟨corpora, hreads, rfl⟩

/-- If some corpus is not UTF-8 text, the run fails and writes no report. -/
theorem Ends.of_not_text (h : Ends calculator path tree outcome) {below : List FileName}
    {bytes : ByteArray} (hcorpus : HasCorpus path tree below bytes)
    (hbytes : ∀ text, decodeUtf8 bytes ≠ .ok text) :
    outcome.exitCode = 1 ∧ ¬ outcome.ShowsReport := by
  have hshows : ¬ outcome.ShowsReport := by
    intro hshows
    obtain ⟨text, htext⟩ := (h.showsReport_iff.1 hshows).2.2 below bytes hcorpus
    exact hbytes text htext
  cases h with
  | fails cause => exact ⟨rfl, hshows⟩
  | nothing hlimits hnone => exact absurd hcorpus (hnone below bytes)
  | report corpora => exact absurd (showsReport_printed _) hshows

end Outcome

section Run

variable {tree : FileTree} {path settingsPath : Option Path}

/-- A run is that on the tree where its path leads. -/
theorem run_of_lookup {found : FileTree} (h : tree.lookup (target path).1 = .ok found) :
    run tree path settingsPath = runOn (settingsOf tree settingsPath) (target path).1 found := by
  cases settingsPath <;> simp only [run, settingsOf, h]

/-- A run whose path leads nowhere fails. -/
theorem run_of_lookup_error {cause : FileError} (h : tree.lookup (target path).1 = .error cause) :
    run tree path settingsPath = failure "" (target path).2 := by
  simp only [run, h]

/-- A settings file that is missing or cannot be used stands for the default settings. -/
theorem settingsOf_unusable {settingsPath : Path}
    (h : ¬ ∃ text settings, tree.readText settingsPath = .ok text ∧
      Settings.ofJsonText text = .ok settings) :
    settingsOf tree (some settingsPath) = {} := by
  rw [settingsOf, Settings.load]
  cases htext : tree.readText settingsPath with
  | error cause =>
    rw [Settings.ofFile]
    split <;> rfl
  | ok text =>
    cases hsettings : Settings.ofJsonText text with
    | error cause => simp only [Settings.ofFile, hsettings]
    | ok settings => exact absurd ⟨text, settings, htext, hsettings⟩ h

/-- The exit code is zero if the path leads somewhere where all paths can be followed and every
significant line of every corpus passes. -/
theorem exitCode_run :
    (run tree path settingsPath).exitCode = 0 ↔
      ∃ found, tree.lookup (target path).1 = .ok found ∧ WithinLimits (target path).1 found ∧
        AllPass ⟨settingsOf tree settingsPath⟩ (target path).1 found := by
  cases hfound : tree.lookup (target path).1 with
  | error cause =>
    rw [run_of_lookup_error hfound]
    refine iff_of_false exitCode_failure_ne_zero ?_
    rintro ⟨found, hlookup, -⟩
    cases hlookup
  | ok found =>
    rw [run_of_lookup hfound, (ends_runOn _ _ _).exitCode_eq_zero_iff]
    simp only [Except.ok.injEq, exists_eq_left']

end Run

section Dots

/-- The path `./` so many times over: a path of any length that stays where it is. -/
def dots : Nat → Path
  | 0 => []
  | n + 1 => Path.here ++ Path.slash :: dots n

/-- The components of the path stay where they are. -/
theorem components_dots (n : Nat) :
    Path.components (dots n) = List.replicate n Path.here ++ [[]] := by
  rw [Path.components]
  induction n with
  | zero => rfl
  | succ n ih =>
    have hhere : Path.slash ∉ Path.here := by decide
    rw [dots, List.splitOn_append_cons_self_of_not_mem hhere, ih, List.replicate_succ]
    rfl

/-- Each repetition adds two bytes. -/
theorem length_dots (n : Nat) : (dots n).length = 2 * n := by
  induction n with
  | zero => rfl
  | succ n ih =>
    have hhere : Path.here.length = 1 := rfl
    rw [dots, List.length_append, List.length_cons, ih, hhere]
    omega

/-- The path ends with a slash. -/
theorem getLast?_dots (n : Nat) : (dots (n + 1)).getLast? = some Path.slash := by
  induction n with
  | zero => rfl
  | succ n ih =>
    rw [dots, List.getLast?_append_cons]
    exact ih

/-- Up to the limit, nothing is wrong with the path. -/
theorem fault?_dots {n : Nat} (h : 2 * (n + 1) ≤ Path.maxBytes) :
    Path.fault? (dots (n + 1)) = none := by
  have hnull : ∀ n, (dots n).contains 0 = false := by
    intro n
    induction n with
    | zero => rfl
    | succ n ih => exact ih
  have hlong : Path.isTooLong (dots (n + 1)) = false := by
    rw [isTooLong_eq_false_iff, length_dots]
    exact h
  have hempty : (dots (n + 1)).isEmpty = false := rfl
  simp only [Path.fault?, hnull, hlong, hempty, Bool.false_eq_true, if_false]

/-- The path leads to the working directory. -/
theorem lookup_dots {n : Nat} (h : 2 * (n + 1) ≤ Path.maxBytes)
    (entries : List (FileName × FileTree)) :
    (FileTree.directory [(Path.workingName, .directory entries)]).lookup (dots (n + 1)) =
      .ok (.directory entries) := by
  have hat : (FileTree.directory [(Path.workingName, .directory entries)]).at?
      [Path.workingName].reverse = some (.directory entries) := rfl
  have hstays : ∀ component ∈ Path.components (dots (n + 1)), Path.stays component = true := by
    rw [components_dots]
    intro component hmem
    rcases List.mem_append.1 hmem with hhere | hempty
    · rw [List.eq_of_mem_replicate hhere]
      rfl
    · rw [List.mem_singleton.1 hempty]
      rfl
  have horigin : Path.origin (dots (n + 1)) = [Path.workingName] := rfl
  rw [FileTree.lookup, FileTree.locate, fault?_dots h, horigin]
  simp only [FileTree.follow_of_stays hat hstays]
  rfl

/-- A name is put directly behind the path. -/
theorem pathTo_dots (n : Nat) (name : FileName) :
    pathTo (dots (n + 1)) [name] = dots (n + 1) ++ name := by
  rw [pathTo, Path.join, getLast?_dots]
  -- the path ends with a slash already
  · simp
  · exact List.cons_ne_nil _ _

end Dots

/-- **The verdict on a file tree.**  The exit code is zero exactly if the path leads somewhere, no
path to a directory or corpus file there is too long to be followed, and there is no corpus or every
significant line of every corpus passes.  A report that is written is the total of the reports of
all corpora, in the order in which they are found, and counts the lines that do not pass.  A corpus
that is not UTF-8 text makes the run fail without a report.  A settings file that cannot be used
changes nothing. -/
theorem run_verdict (tree : FileTree) (path settingsPath : Option Path) :
    let root := (target path).1
    let calculator : Calculator := ⟨settingsOf tree settingsPath⟩
    let outcome := run tree path settingsPath
    (outcome.exitCode = 0 ↔
      ∃ found, tree.lookup root = .ok found ∧ WithinLimits root found ∧
        ((∀ below bytes, ¬ HasCorpus root found below bytes) ∨ AllPass calculator root found)) ∧
    (outcome.ShowsReport →
      ∃ found corpora report, tree.lookup root = .ok found ∧
        (∀ below bytes, (below, bytes) ∈ corpusFiles root found ↔
          HasCorpus root found below bytes) ∧
        List.Forall₂ (Reads root) (corpusFiles root found) corpora ∧
        outcome = printed report ∧
        report.checked = ((reports calculator corpora).map Report.checked).sum ∧
        report.passed = ((reports calculator corpora).map Report.passed).sum ∧
        report.diagnostics = (reports calculator corpora).flatMap Report.diagnostics ∧
        Diagnostic.count .error report.diagnostics =
          (corpora.map fun corpus => (Corpus.significantLines corpus.2.toList).countP
            (¬ Corpus.Passes calculator ·)).sum) ∧
    (∀ found below bytes, tree.lookup root = .ok found → HasCorpus root found below bytes →
      (∀ text, decodeUtf8 bytes ≠ .ok text) → outcome.exitCode = 1 ∧ ¬ outcome.ShowsReport) ∧
    ∀ missing, (¬ ∃ text settings, tree.readText missing = .ok text ∧
        Settings.ofJsonText text = .ok settings) →
      run tree path (some missing) = run tree path none := by
  intro root calculator outcome
  have hends : ∀ {found}, tree.lookup root = .ok found → Ends calculator root found outcome := by
    intro found hfound
    simp only [outcome, run_of_lookup hfound]
    exact ends_runOn _ _ _
  refine ⟨exitCode_run.trans (exists_congr fun found => and_congr_right fun _ =>
    and_congr_right fun _ => ?_), fun hshows => ?_, ?_, ?_⟩
  · -- without a corpus there is no line that does not pass
    refine ⟨.inr, ?_⟩
    rintro (hnone | hall)
    · exact fun below bytes hcorpus => absurd hcorpus (hnone below bytes)
    · exact hall
  · cases hfound : tree.lookup root with
    | error cause =>
      have hfails : outcome = failure "" (target path).2 := run_of_lookup_error hfound
      exact absurd (hfails ▸ hshows) (not_showsReport_failure _)
    | ok found =>
      obtain ⟨corpora, hreads, hprinted⟩ := (hends hfound).eq_printed hshows
      exact ⟨found, corpora, _, rfl, fun below bytes => mem_corpusFiles, hreads, hprinted, rfl, rfl,
        rfl, count_error_total calculator corpora⟩
  · exact fun found below bytes hfound hcorpus hbytes =>
      (hends hfound).of_not_text hcorpus hbytes
  · intro missing hmissing
    have hsettings : settingsOf tree (some missing) = settingsOf tree none :=
      settingsOf_unusable hmissing
    cases hfound : tree.lookup (target path).1 with
    | error cause => rw [run_of_lookup_error hfound, run_of_lookup_error hfound]
    | ok found => rw [run_of_lookup hfound, run_of_lookup hfound, hsettings]

/-- A directory is there, and the only line of its only corpus passes.  But the path to the corpus
has 4096 bytes, one too many. -/
theorem run_fails_beyond_limit :
    let path := dots 2045
    let tree := FileTree.directory
      [(Path.workingName, .directory [("a.expr", .file "1 => 1\n".toUTF8)])]
    ¬ ((run tree (some path) none).exitCode = 0 ↔
      ∃ found, tree.lookup path = .ok found ∧
        ((∀ below bytes, ¬ HasCorpus path found below bytes) ∨
          AllPass ⟨settingsOf tree none⟩ path found)) := by
  intro path tree hclaim
  have hlookup : tree.lookup path = .ok (.directory [("a.expr", .file "1 => 1\n".toUTF8)]) :=
    lookup_dots (by decide) _
  have hname : isCorpusName (lastName path ["a.expr"]) = true := by decide
  have hall : AllPass ⟨settingsOf tree none⟩ path
      (.directory [("a.expr", .file "1 => 1\n".toUTF8)]) := by
    rintro below bytes ⟨hholds, -⟩
    have hpasses : ∀ line ∈ Corpus.significantLines "1 => 1\n".toList,
        Corpus.Passes ⟨settingsOf tree none⟩ line := by decide
    cases hholds with
    | entry hmem hbelow =>
      cases List.mem_singleton.1 hmem
      cases hbelow
      exact ⟨"1 => 1\n", rfl, hpasses⟩
  obtain ⟨found, hfound, hlimits, -⟩ := exitCode_run.1 (hclaim.2 ⟨_, hlookup, .inr hall⟩)
  obtain rfl := Except.ok.inj (hlookup.symm.trans hfound)
  have hsize := hlimits.corpus ["a.expr"] "1 => 1\n".toUTF8
    ⟨.entry (List.mem_singleton_self _) (.here _), hname⟩
  have hroot : (target (some path)).1 = dots 2045 := rfl
  rw [hroot, pathTo_dots, List.length_append, length_dots] at hsize
  exact absurd hsize (by decide)

end CheckCommand
end InfixCalc
