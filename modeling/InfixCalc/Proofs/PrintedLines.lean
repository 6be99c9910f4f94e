/-
# What is printed of a line

A line of a corpus holds no line feed, and what is wrong with a malformed line quotes characters of
the line only (`Corpus.mem_of_readCase`).  But the expression of a well formed line may hold line
feeds, since they are written with an escape.  In the detail of a diagnostic they are drawn as
spaces, and each line of the detail begins with a bar; in the message there is one exactly if the
expression breaks off (`Corpus.BreaksOffAt`).

**`Corpus.printsByLine_iff`** says that every other diagnostic is one line of header and then lines
that begin with a bar.  So the diagnostics of a report can be told apart by its lines.
-/

import InfixCalc.Proofs.CorpusWriting
import InfixCalc.Proofs.Messages
import Mathlib.Data.List.SplitBy

namespace InfixCalc

namespace Text

/-- Trimming only takes characters away. -/
theorem mem_of_mem_trim {text : List Char} {c : Char} (h : c ∈ trim text) : c ∈ text := by
  have hleft {chars : List Char} (hc : c ∈ trimLeft chars) : c ∈ chars :=
    (List.dropWhile_sublist isBlank).mem hc
  rw [trim, trimRight, List.mem_reverse] at h
  exact hleft (List.mem_reverse.1 (hleft h))

/-- What is between line feeds has none. -/
theorem lineFeed_notMem_of_mem_splitOn {text piece : List Char} (h : piece ∈ text.splitOn '\n') :
    '\n' ∉ piece := by
  induction text generalizing piece with
  | nil =>
    rw [List.splitOn_nil, List.mem_singleton] at h
    rw [h]
    exact List.not_mem_nil
  | cons c text ih =>
    rw [List.splitOn_cons_eq_if_modifyHead] at h
    split at h
    · rcases List.mem_cons.1 h with rfl | h
      · exact List.not_mem_nil
      · exact ih h
    · rename_i hc
      obtain ⟨first, rest, hsplit⟩ := List.exists_cons_of_ne_nil (List.splitOn_ne_nil '\n' text)
      rw [hsplit, List.modifyHead_cons] at h
      rw [hsplit] at ih
      rcases List.mem_cons.1 h with rfl | h
      · rw [List.mem_cons, not_or]
        exact ⟨fun heq => hc (beq_iff_eq.2 heq.symm), ih List.mem_cons_self⟩
      · exact ih (List.mem_cons_of_mem first h)

/-- **A line has no line feed.** -/
theorem lineFeed_notMem_of_mem_lines {text line : List Char} (h : line ∈ lines text) :
    '\n' ∉ line := by
  have hpiece {piece : List Char} (hmem : piece ∈ text.splitOn '\n') : '\n' ∉ piece :=
    lineFeed_notMem_of_mem_splitOn hmem
  rw [lines, linesOfPieces, List.mem_append, List.mem_map] at h
  rcases h with ⟨piece, hmem, rfl⟩ | h
  · have hend := hpiece (List.dropLast_subset _ hmem)
    unfold endedLine
    split
    · exact fun hdrop => hend (List.dropLast_subset _ hdrop)
    · exact hend
  · split at h
    · cases h
    · cases h
    · rename_i last hlast
      rw [List.mem_singleton] at h
      exact h ▸ hpiece (List.mem_of_getLast? ‹_›)

/-- A character that starts no escape stands in the text. -/
theorem mem_of_unescapeAfter_unknown {before text : List Char} {c : Char}
    (h : unescapeAfter before text = .error (.unknown c)) : c ∈ text := by
  fun_induction unescapeAfter before text with
  | case1 => cases h
  | case2 before rest ih => exact List.mem_cons_of_mem _ (List.mem_cons_of_mem _ (ih h))
  | case3 before rest ih => exact List.mem_cons_of_mem _ (List.mem_cons_of_mem _ (ih h))
  | case4 before rest ih => exact List.mem_cons_of_mem _ (List.mem_cons_of_mem _ (ih h))
  | case5 before rest ih => exact List.mem_cons_of_mem _ (List.mem_cons_of_mem _ (ih h))
  | case6 before d rest =>
    cases h
    exact List.mem_cons_of_mem _ List.mem_cons_self
  | case7 => cases h
  | case8 before d rest _ _ _ _ _ _ ih => exact List.mem_cons_of_mem d (ih h)

end Text

namespace Corpus

/-- A line is divided into its two sides and the arrow between them. -/
theorem divideBackwards_eq_some {following before left right : List Char}
    (h : divideBackwards following before = some (left, right)) :
    before.reverse ++ following = left ++ '=' :: '>' :: right := by
  fun_induction divideBackwards following before with
  | case1 => cases h
  | case2 following before =>
    cases h
    simp
  | case3 following c before _ ih => simp [← ih h]

/-- The two sides of a line stand around an arrow. -/
theorem divide?_eq_some {line left right : List Char} (h : divide? line = some (left, right)) :
    line = left ++ '=' :: '>' :: right := by
  rw [← divideBackwards_eq_some h, List.reverse_reverse, List.append_nil]

/-- What is wrong with a left side quotes characters of it only. -/
theorem mem_of_readExpression {left : List Char} {cause : LineError}
    (h : readExpression left = .error cause) {c : Char} (hc : c ∈ cause.quoted) : c ∈ left := by
  unfold readExpression at h
  split at h
  · cases h
  · split at h
    · cases h
    · rename_i escape hescape
      obtain rfl := Except.error.inj h
      match escape with
      | .unfinished => exact absurd hc List.not_mem_nil
      | .unknown d =>
        rw [List.mem_singleton.1 hc]
        exact Text.mem_of_unescapeAfter_unknown hescape

/-- **What is wrong with a line** quotes characters of the line only. -/
theorem mem_of_readCase {number : Nat} {line : List Char} {cause : LineError}
    (h : readCase number line = .error cause) {c : Char} (hc : c ∈ cause.quoted) : c ∈ line := by
  unfold readCase at h
  split at h
  · obtain rfl := Except.error.inj h
    exact absurd hc List.not_mem_nil
  · rename_i left right hdivide
    rw [divide?_eq_some hdivide, List.mem_append]
    split at h
    · obtain rfl := Except.error.inj h
      rw [LineError.quoted, String.toList_ofList] at hc
      exact .inr (List.mem_cons_of_mem _ (List.mem_cons_of_mem _ (Text.mem_of_mem_trim hc)))
    · split at h
      · cases h
      · rename_i found hfound
        obtain rfl := Except.error.inj h
        exact .inl (mem_of_readExpression hfound hc)

end Corpus

namespace Diagnostic

/-- The header of an error at a line. -/
def headerAt (source : String) (number : Nat) (message : String) : String :=
  "[ERROR] " ++ source ++ ":" ++ toString number ++ ": " ++ message

/-- The diagnostic is printed as one line of header for this place and then lines that begin with a
bar. -/
def PrintsByLine (diagnostic : Diagnostic) (source : String) (number : Nat) : Prop :=
  ∃ below, diagnostic.text.toList.splitOn '\n' =
      (headerAt source number diagnostic.message).toList :: below ∧
    ∀ line ∈ below, bar <+: line

/-- Behind a bar the detail is lines that begin with one. -/
def HasBars (detail : String) : Prop :=
  ∀ line ∈ (bar ++ detail.toList).splitOn '\n', bar <+: line

/-- A detail on one line stands behind the bar that is put before it. -/
theorem hasBars_of_oneLine {detail : String} (h : OneLine detail) : HasBars detail := by
  have hline : '\n' ∉ bar ++ detail.toList := by
    rw [List.mem_append, not_or]
    exact ⟨by decide, h⟩
  intro line hmem
  rw [List.splitOn_eq_singleton hline, List.mem_singleton] at hmem
  rw [hmem]
  exact List.prefix_append bar _

/-- Every line of a drawing stands behind a bar. -/
theorem hasBars_drawing (expression : String) :
    ∀ position : Option Nat, HasBars (drawing expression position)
  | none => hasBars_of_oneLine (drawnAs_onOneLine expression).lineFeed_notMem
  | some place => by
    intro line hmem
    rw [splitOn_bar_drawing_some, List.mem_cons, List.mem_singleton] at hmem
    rcases hmem with rfl | rfl
    · exact List.prefix_append bar _
    · exact List.prefix_append bar _

variable {source : String} {line : List Char × Nat} {diagnostic : Diagnostic}

/-- The header is on one line if the message is. -/
theorem oneLine_headerAt_iff (hsource : OneLine source) {number : Nat} {message : String} :
    OneLine (headerAt source number message) ↔ OneLine message := by
  have hseverity : OneLine "[ERROR] " := oneLine_ofList (by decide)
  have hcolon : OneLine ":" := oneLine_ofList (by decide)
  have hspace : OneLine ": " := oneLine_ofList (by decide)
  unfold headerAt
  simp only [oneLine_append_iff, hseverity, hsource, hcolon, hspace, oneLine_toString, true_and]

/-- A header begins with no bar. -/
theorem isPrefixOf_headerAt (source : String) (number : Nat) (message : String) :
    bar.isPrefixOf (headerAt source number message).toList = false := by
  have hhead : "[ERROR] ".toList = '[' :: "ERROR] ".toList := rfl
  unfold headerAt
  simp only [String.toList_append, hhead, List.cons_append]
  rfl

/-- The text of a diagnostic of a line is its header, and then its detail behind bars. -/
theorem exists_splitOn_text_eq (h : Corpus.ReportsLine source line diagnostic)
    (hbars : ∀ detail ∈ diagnostic.detail, HasBars detail) :
    ∃ below, diagnostic.text.toList.splitOn '\n' =
        (headerAt source line.2 diagnostic.message).toList.splitOn '\n' ++ below ∧
      ∀ l ∈ below, bar <+: l := by
  have hheader : { diagnostic with detail := none }.text =
      headerAt source line.2 diagnostic.message := by
    obtain ⟨hseverity, hsource, hline⟩ := h
    unfold headerAt
    simp only [text, hseverity, hsource, hline, String.append_empty, String.append_assoc]
    rfl
  cases hdetail : diagnostic.detail with
  | none =>
    refine ⟨[], ?_, fun l hl => absurd hl List.not_mem_nil⟩
    rw [← hheader, List.append_nil, ← hdetail]
  | some detail =>
    exact ⟨_, by rw [splitOn_text_of_detail hdetail, hheader], hbars detail hdetail⟩

/-- **A diagnostic prints by line** exactly if its message is one line. -/
theorem printsByLine_iff_oneLine (h : Corpus.ReportsLine source line diagnostic)
    (hsource : OneLine source) (hbars : ∀ detail ∈ diagnostic.detail, HasBars detail) :
    diagnostic.PrintsByLine source line.2 ↔ OneLine diagnostic.message := by
  obtain ⟨below, htext, hbelow⟩ := exists_splitOn_text_eq h hbars
  have hone : OneLine (headerAt source line.2 diagnostic.message) ↔ OneLine diagnostic.message :=
    oneLine_headerAt_iff hsource
  rw [← hone, PrintsByLine, htext]
  generalize headerAt source line.2 diagnostic.message = header
  constructor
  · rintro ⟨rest, heq, -⟩
    -- the first piece of the header is the header itself
    have hfirst : header.toList ∈ header.toList.splitOn '\n' := by
      refine List.mem_of_mem_head? ?_
      rw [← List.head?_append_of_ne_nil _ (List.splitOn_ne_nil '\n' header.toList), heq]
      rfl
    exact Text.lineFeed_notMem_of_mem_splitOn hfirst
  · intro hline
    exact ⟨below, by rw [List.splitOn_eq_singleton hline, List.singleton_append], hbelow⟩

/-- **What is printed by line is read back by line:** a diagnostic starts at each line that begins
with no bar. -/
theorem splitBy_of_printsByLine (source : String) {diagnostics : List Diagnostic}
    (h : ∀ diagnostic ∈ diagnostics, ∃ number, diagnostic.PrintsByLine source number) :
    (diagnostics.flatMap fun diagnostic => diagnostic.text.toList.splitOn '\n').splitBy
        (fun _ line => bar.isPrefixOf line) =
      diagnostics.map fun diagnostic => diagnostic.text.toList.splitOn '\n' := by
  rw [List.flatMap_def]
  refine List.splitBy_flatten ?_ (List.forall_mem_map.2 fun diagnostic hmem => ?_) ?_
  · rw [List.mem_map]
    rintro ⟨diagnostic, -, hnil⟩
    exact List.splitOn_ne_nil _ _ hnil
  · obtain ⟨number, below, htext, hbelow⟩ := h diagnostic hmem
    -- within a diagnostic every later line begins with a bar
    have hbar : ∀ line ∈ below, bar.isPrefixOf line := fun line hline =>
      List.isPrefixOf_iff_prefix.2 (hbelow line hline)
    rw [htext]
    refine List.Pairwise.isChain (List.pairwise_cons.2 ⟨hbar, ?_⟩)
    exact List.pairwise_of_forall_mem_list fun _ _ line hline => hbar line hline
  -- the next diagnostic begins with its header, which has none
  · refine List.Pairwise.isChain (List.pairwise_map.2 ?_)
    refine List.pairwise_of_forall_mem_list fun first _ second hsecond => ?_
    obtain ⟨number, below, htext, -⟩ := h second hsecond
    refine ⟨List.splitOn_ne_nil _ _, List.splitOn_ne_nil _ _, ?_⟩
    simp only [htext, List.head_cons]
    exact isPrefixOf_headerAt source number second.message

end Diagnostic

namespace Corpus

/-- The line is a case of an expression that breaks off, and the settings admit it. -/
def BreaksOffAt (calculator : Calculator) (line : List Char × Nat) : Prop :=
  ∃ case expression, readCase line.2 line.1 = .ok case ∧ case.expression = some expression ∧
    calculator.settings.Admits expression.length ∧ BreaksOff expression.toList

section Line

variable {calculator : Calculator} {source : String} {line : List Char × Nat}
  {diagnostic : Diagnostic}

/-- A line breaks off if the expression of its case does and is not too long. -/
theorem breaksOffAt_iff_of_readCase {case : CorpusCase} (h : readCase line.2 line.1 = .ok case) :
    BreaksOffAt calculator line ↔ ∃ expression, case.expression = some expression ∧
      calculator.settings.Admits expression.length ∧ BreaksOff expression.toList := by
  constructor
  · rintro ⟨found, expression, hread, hbreaks⟩
    obtain rfl : found = case := Except.ok.inj (hread.symm.trans h)
    exact ⟨expression, hbreaks⟩
  · rintro ⟨expression, hbreaks⟩
    exact ⟨case, expression, h, hbreaks⟩

/-- What is expected is written on one line. -/
theorem oneLine_expectation (expected : Expectation) : OneLine expected.text := fun hmem =>
  absurd (Expectation.plain_of_mem_text hmem).1 (by decide)

/-- A value that was not expected is reported on one line. -/
theorem oneLine_mismatch_ok (case : CorpusCase) (source : String) (actual : Int32) :
    OneLine (case.mismatch source (.ok actual)).message := by
  simp only [CorpusCase.mismatch, oneLine_append_iff]
  exact ⟨⟨⟨oneLine_ofList (by decide), oneLine_expectation case.expected⟩,
    oneLine_ofList (by decide)⟩, oneLine_ofInt32 actual⟩

/-- Before the message of the error there is nothing but words. -/
theorem oneLine_mismatch_error_iff (case : CorpusCase) (source : String) {cause : CalcError} :
    OneLine (case.mismatch source (.error cause)).message ↔ OneLine cause.message := by
  have hexpected : OneLine "期望 " := oneLine_ofList (by decide)
  have hactual : OneLine "，实际 " := oneLine_ofList (by decide)
  have hkind : OneLine cause.kind.name := by
    cases cause.kind <;> exact oneLine_ofList (by decide)
  have hcolon : OneLine ": " := oneLine_ofList (by decide)
  simp only [CorpusCase.mismatch, oneLine_append_iff, hexpected, oneLine_expectation, hactual,
    hkind, hcolon, true_and]

/-- Every line of the detail of a mismatch stands behind a bar, whatever the outcome is. -/
theorem hasBars_mismatch (case : CorpusCase) (source : String)
    (outcome : Except CalcError Int32) :
    ∀ detail ∈ (case.mismatch source outcome).detail, Diagnostic.HasBars detail := by
  intro detail hdetail
  obtain ⟨expression, position, rfl⟩ :
      ∃ expression position, Diagnostic.drawing expression position = detail := by
    match outcome with
    | .ok actual =>
      obtain ⟨expression, -, hdrawing⟩ := Option.map_eq_some_iff.1 hdetail
      exact ⟨expression, none, hdrawing⟩
    | .error cause =>
      obtain ⟨expression, -, hdrawing⟩ := Option.map_eq_some_iff.1 hdetail
      exact ⟨expression, cause.position?, hdrawing⟩
  exact Diagnostic.hasBars_drawing expression position

/-- A case that does not pass is reported as a mismatch. -/
theorem exists_mismatch_of_failure? (h : failure? calculator source line = some diagnostic) :
    ∃ case, readCase line.2 line.1 = .ok case ∧
      diagnostic = case.mismatch source (calculator.calculate case.expression).value := by
  obtain ⟨case, hcase, hcheck⟩ := Option.bind_eq_some_iff.1 h
  refine ⟨case, ?_, ?_⟩
  · unfold case? at hcase
    split at hcase
    · rename_i found hread
      rw [hread, Option.some.inj hcase]
    · cases hcase
  · rw [CorpusCase.check] at hcheck
    split at hcheck
    · cases hcheck
    · exact (Option.some.inj hcheck).symm

/-- **The message of a case** that does not pass is one line unless the expression breaks off. -/
theorem oneLine_mismatch_iff {case : CorpusCase} (h : readCase line.2 line.1 = .ok case) :
    OneLine (case.mismatch source (calculator.calculate case.expression).value).message ↔
      ¬ BreaksOffAt calculator line := by
  rw [breaksOffAt_iff_of_readCase h]
  match case.expression with
  | none =>
    have hmissing : (calculator.calculate none).value =
        .error (.parse (.invalidArgument .missing)) := rfl
    rw [hmissing, oneLine_mismatch_error_iff]
    refine iff_of_true (CalcError.oneLine_invalidArgument .missing) ?_
    rintro ⟨expression, heq, -⟩
    cases heq
  | some expression =>
    simp only [Option.some.injEq, exists_eq_left']
    match houtcome : (calculator.calculate (some expression)).value with
    | .ok actual =>
      refine iff_of_true (oneLine_mismatch_ok case source actual) fun hbreaks => ?_
      obtain ⟨place, herror⟩ := Calculator.unexpected_lineFeed_iff.2 hbreaks
      cases houtcome.symm.trans herror
    | .error cause =>
      rw [oneLine_mismatch_error_iff]
      exact Calculator.oneLine_message_iff houtcome

/-- A diagnostic of a line is one line of message, unless the expression breaks off, and then lines
with bars. -/
theorem printed_of_problem? (hline : '\n' ∉ line.1) (h : problem? source line = some diagnostic) :
    (OneLine diagnostic.message ↔ ¬ BreaksOffAt calculator line) ∧
      ∀ detail ∈ diagnostic.detail, Diagnostic.HasBars detail := by
  unfold problem? at h
  split at h
  · cases h
  · rename_i cause hread
    obtain rfl := Option.some.inj h
    refine ⟨iff_of_true ?_ ?_, ?_⟩
    · exact LineError.oneLine_message fun hmem => hline (mem_of_readCase hread hmem)
    · rintro ⟨case, expression, hcase, -⟩
      cases hread.symm.trans hcase
    · rintro detail hdetail
      obtain rfl := Option.some.inj hdetail
      refine Diagnostic.hasBars_of_oneLine ?_
      rwa [OneLine, String.toList_ofList]

/-- The message of a failure is on one line unless its expression breaks off, and every line of its
detail stands behind a bar. -/
theorem printed_of_failure? (h : failure? calculator source line = some diagnostic) :
    (OneLine diagnostic.message ↔ ¬ BreaksOffAt calculator line) ∧
      ∀ detail ∈ diagnostic.detail, Diagnostic.HasBars detail := by
  obtain ⟨case, hread, rfl⟩ := exists_mismatch_of_failure? h
  exact ⟨oneLine_mismatch_iff hread, hasBars_mismatch case source _⟩

end Line

/-- There is no line feed within a significant line. -/
theorem lineFeed_notMem_of_mem_significantLines {text : List Char} {line : List Char × Nat}
    (h : line ∈ significantLines text) : '\n' ∉ line.1 := by
  have hzip := (List.mem_filter.1 h).1
  exact Text.lineFeed_notMem_of_mem_lines (List.fst_mem_of_mem_zipIdx hzip)

/-- **What is printed of each diagnostic.** -/
theorem exists_line_printed {calculator : Calculator} {source text : String}
    {diagnostic : Diagnostic}
    (h : diagnostic ∈ (check calculator source text).value.diagnostics) :
    ∃ line ∈ significantLines text.toList, ReportsLine source line diagnostic ∧
      (OneLine diagnostic.message ↔ ¬ BreaksOffAt calculator line) ∧
      ∀ detail ∈ diagnostic.detail, Diagnostic.HasBars detail := by
  rw [diagnostics_check, malformed_eq, failures_eq, List.mem_append, List.mem_filterMap,
    List.mem_filterMap] at h
  rcases h with ⟨line, hmem, hline⟩ | ⟨line, hmem, hline⟩
  · exact ⟨line, hmem, reportsLine_of_problem? hline,
      printed_of_problem? (lineFeed_notMem_of_mem_significantLines hmem) hline⟩
  · exact ⟨line, hmem, reportsLine_of_failure? hline, printed_of_failure? hline⟩

/-- **A report is printed line by line**, except for expressions that break off.  The message of a
diagnostic has a line feed, and its printed text something other than a header and lines with bars,
exactly if the expression of its line misses an operand at its end and has a line feed there.  Where
no expression breaks off, the printed diagnostics are read back from the lines. -/
theorem printsByLine_iff (calculator : Calculator) {source : String} (hsource : OneLine source)
    (text : String) :
    let diagnostics := (check calculator source text).value.diagnostics
    (∀ diagnostic ∈ diagnostics, ∃ line ∈ significantLines text.toList,
      ReportsLine source line diagnostic ∧
        (OneLine diagnostic.message ↔ ¬ BreaksOffAt calculator line) ∧
        (diagnostic.PrintsByLine source line.2 ↔ ¬ BreaksOffAt calculator line)) ∧
    ((∀ line ∈ significantLines text.toList, ¬ BreaksOffAt calculator line) →
      (diagnostics.flatMap fun diagnostic => diagnostic.text.toList.splitOn '\n').splitBy
          (fun _ line => Diagnostic.bar.isPrefixOf line) =
        diagnostics.map fun diagnostic => diagnostic.text.toList.splitOn '\n') := by
  intro diagnostics
  have hprints : ∀ diagnostic ∈ diagnostics, ∃ line ∈ significantLines text.toList,
      ReportsLine source line diagnostic ∧
        (OneLine diagnostic.message ↔ ¬ BreaksOffAt calculator line) ∧
        (diagnostic.PrintsByLine source line.2 ↔ ¬ BreaksOffAt calculator line) := by
    intro diagnostic hmem
    obtain ⟨line, hline, hreports, hmessage, hbars⟩ := exists_line_printed hmem
    exact ⟨line, hline, hreports, hmessage,
      (Diagnostic.printsByLine_iff_oneLine hreports hsource hbars).trans hmessage⟩
  refine ⟨hprints, fun hnone => Diagnostic.splitBy_of_printsByLine source fun diagnostic hmem => ?_⟩
  obtain ⟨line, hline, -, -, hiff⟩ := hprints diagnostic hmem
  exact ⟨line.2, hiff.2 (hnone line hline)⟩

/-- Here a space follows the line feed, and the diagnostic is printed in three lines. -/
theorem printsByLine_of_space_after_line_feed :
    OneLine "a.expr" ∧
      ∀ diagnostic ∈ (check {} "a.expr" "1+\\n => 1\n").value.diagnostics,
        diagnostic.PrintsByLine "a.expr" 1 := by
  have hsource : OneLine "a.expr" := by decide
  have hdiagnostics : (check {} "a.expr" "1+\\n => 1\n").value.diagnostics =
      [⟨.error, "a.expr", some 1,
        "期望 1，实际 UnexpectedToken: 解析错误: 位置 3 处出现意外的字符 ' '",
        some "1+  \n  |    ^"⟩] := by decide +kernel
  obtain ⟨hprints, -⟩ := printsByLine_iff {} hsource "1+\\n => 1\n"
  refine ⟨hsource, fun diagnostic hmem => ?_⟩
  obtain ⟨⟨chars, number⟩, -, ⟨-, -, hnumber⟩, hmessage, hiff⟩ := hprints diagnostic hmem
  obtain rfl := List.mem_singleton.1 (hdiagnostics ▸ hmem)
  obtain rfl : 1 = number := Option.some.inj hnumber
  exact hiff.2 (hmessage.1 (oneLine_ofList (by decide)))

/-- Here the line feed is the last character, and it is quoted in the message. -/
theorem not_printsByLine_of_line_feed_last :
    OneLine "a.expr" ∧
      ∃ diagnostic ∈ (check {} "a.expr" "1+\\n=> 1\n").value.diagnostics,
        ¬ OneLine diagnostic.message ∧ ¬ diagnostic.PrintsByLine "a.expr" 1 := by
  have hdiagnostics : (check {} "a.expr" "1+\\n=> 1\n").value.diagnostics =
      [⟨.error, "a.expr", some 1,
        "期望 1，实际 UnexpectedToken: 解析错误: 位置 2 处出现意外的字符 '\n'",
        some "1+ \n  |   ^"⟩] := by decide +kernel
  rw [hdiagnostics]
  refine ⟨by decide, _, List.mem_cons_self, by decide +kernel, ?_⟩
  rintro ⟨below, htext, -⟩
  refine Text.lineFeed_notMem_of_mem_splitOn (htext ▸ List.mem_cons_self) ?_
  decide +kernel

end Corpus
end InfixCalc
