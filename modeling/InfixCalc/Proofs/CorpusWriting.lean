/-
# Corpora that are written and read

Every case can be written on a line of its own: the expression with escapes, or `<none>`, then
`=>` and the expectation.  Blank lines and comments may stand anywhere between.  Reading gives back
the cases with the numbers of their lines, the expressions character by character, and finds
nothing wrong (`Corpus.read_write`), unless an expression would be taken for a comment or for
`<none>`; those cannot be written.

A line is looked at in several ways, and each is a lemma here:

| what is looked at | depends on | lemma |
| --- | --- | --- |
| is the line significant | its first character that is no blank | `isSignificant_eq` |
| where is it divided | its last `>` that follows a `=` | `divide?_arrow` |
| what does it expect | what follows | `Expectation.ofText?_text` |
| what is its expression | what comes before, backslash by backslash | `Text.unescape_escape` |
-/

import InfixCalc.Corpus
import InfixCalc.Proofs.Lines
import InfixCalc.Proofs.Numerals

namespace InfixCalc
namespace Text

/-- A character that is not blank stays, and the end is trimmed behind it. -/
theorem trimRight_cons {c : Char} (h : isBlank c = false) (text : List Char) :
    trimRight (c :: text) = c :: trimRight text := by
  have hc : trimLeft [c] = [c] := List.dropWhile_cons_of_neg (by rw [h]; exact Bool.false_ne_true)
  rw [trimRight, trimRight, List.reverse_cons, trimLeft, List.dropWhile_append]
  split
  · rename_i hempty
    have hnil : trimLeft text.reverse = [] := List.isEmpty_iff.1 hempty
    rw [hnil]
    exact congrArg List.reverse hc
  · rw [List.reverse_append]
    rfl

/-- Trimming leaves the first character that is no blank in front. -/
theorem head?_trim (text : List Char) :
    (trim text).head? = text.find? fun c => !isBlank c := by
  induction text with
  | nil => rfl
  | cons c text ih =>
    cases hc : isBlank c with
    | true =>
      have htrim : trim (c :: text) = trim text := by
        rw [trim, trim, trimLeft, List.dropWhile_cons_of_pos hc]
        rfl
      rw [htrim, ih, List.find?_cons_of_neg (by rw [hc]; exact Bool.false_ne_true)]
    | false =>
      have htrim : trim (c :: text) = c :: trimRight text := by
        rw [trim, trimLeft,
          List.dropWhile_cons_of_neg (by rw [hc]; exact Bool.false_ne_true), trimRight_cons hc]
      rw [htrim, List.find?_cons_of_pos (by rw [hc]; rfl)]
      rfl

/-- A text without blanks is not trimmed. -/
theorem trim_of_forall {text : List Char} (h : ∀ c ∈ text, isBlank c = false) :
    trim text = text := by
  have hleft : ∀ chars : List Char, (∀ c ∈ chars, isBlank c = false) → trimLeft chars = chars := by
    rintro (_ | ⟨c, chars⟩) hchars
    · rfl
    · refine List.dropWhile_cons_of_neg ?_
      rw [hchars c List.mem_cons_self]
      exact Bool.false_ne_true
  rw [trim, trimRight, hleft text h, hleft text.reverse fun c hc => h c (List.mem_reverse.1 hc),
    List.reverse_reverse]

/-- A character that is no backslash stands for itself. -/
theorem unescapeAfter_cons {c : Char} (h : c ≠ '\\') (before rest : List Char) :
    unescapeAfter before (c :: rest) = unescapeAfter (c :: before) rest := by
  rw [unescapeAfter]
  all_goals grind

/-- What is escaped is read back, after whatever has been read before. -/
theorem unescapeAfter_escape (before text : List Char) :
    unescapeAfter before (escape text) = .ok (before.reverse ++ text) := by
  induction text generalizing before with
  | nil => rw [List.append_nil]; rfl
  | cons c text ih =>
    have hnext : unescapeAfter (c :: before) (escape text) = .ok (before.reverse ++ c :: text) := by
      rw [ih, List.reverse_cons, List.append_assoc]
      rfl
    -- a character with an escape is read by the escape's own equation
    unfold escape at hnext ⊢
    rw [List.flatMap_cons]
    split
    · exact hnext
    · exact hnext
    · exact hnext
    · exact hnext
    · rename_i hne
      exact (unescapeAfter_cons hne before _).trans hnext

/-- **What is escaped is read back.** -/
theorem unescape_escape (text : List Char) : unescape (escape text) = .ok text :=
  unescapeAfter_escape [] text

/-- An escaped text stays on one line. -/
theorem lineFeed_not_mem_escape (text : List Char) : '\n' ∉ escape text := by
  intro h
  obtain ⟨c, -, hc⟩ := List.mem_flatMap.1 h
  split at hc
  all_goals grind

end Text

namespace Expectation

/-- A written expectation has no blank in it, and no `>`. -/
theorem plain_of_mem_text {expected : Expectation} {c : Char} (h : c ∈ expected.text.toList) :
    Text.isBlank c = false ∧ c ≠ '>' := by
  cases expected with
  | value n =>
    rcases Decimal.of_mem_ofInt32 h with rfl | hdigit
    · decide
    · refine ⟨CharClass.isBlank_of_isDigit hdigit, ?_⟩
      rintro rfl
      exact absurd hdigit (by decide)
  | error kind =>
    have hplain : kind.name.toList.all (fun c => !Text.isBlank c && c != '>') = true := by
      cases kind <;> rfl
    simpa using List.all_eq_true.1 hplain c h

/-- **What is expected is read back** from its text. -/
theorem ofText?_text (expected : Expectation) : ofText? expected.text.toList = some expected := by
  cases expected with
  | value n => rw [ofText?, text, Decimal.readInt32?_ofInt32]
  | error kind =>
    have hnumeral : Decimal.readInt32? kind.name.toList = none := by cases kind <;> rfl
    simp only [ofText?, text, hnumeral, String.ofList_toList, ErrorKind.ofName?_name,
      Option.map_some]

end Expectation

namespace Corpus

/-- The first character that is no blank decides whether a line is significant. -/
theorem isSignificant_eq (line : List Char) :
    isSignificant line = (line.find? fun c => !Text.isBlank c).any (· != '#') := by
  rw [← Text.head?_trim, isSignificant]
  cases Text.trim line <;> rfl

/-- A carriage return at the end of a line does not make it significant. -/
theorem isSignificant_endedLine (line : List Char) :
    isSignificant (Text.endedLine line) = isSignificant line := by
  unfold Text.endedLine
  split
  · rename_i h
    obtain ⟨first, rfl⟩ := List.getLast?_eq_some_iff.1 h
    have hblank : ['\r'].find? (fun c => !Text.isBlank c) = none := rfl
    rw [List.dropLast_concat, isSignificant_eq, isSignificant_eq, List.find?_append, hblank,
      Option.or_none]
  · rfl

/-- A character that cannot end an arrow is passed over. -/
theorem divideBackwards_cons {c : Char} (h : c ≠ '>') (following before : List Char) :
    divideBackwards following (c :: before) = divideBackwards (c :: following) before := by
  rw [divideBackwards]
  all_goals grind

/-- A line is divided at its last arrow. -/
theorem divideBackwards_arrow {right : List Char} (h : '>' ∉ right)
    (following before : List Char) :
    divideBackwards following (right ++ '>' :: '=' :: before) =
      some (before.reverse, right.reverse ++ following) := by
  induction right generalizing following with
  | nil => rfl
  | cons c right ih =>
    obtain ⟨hc, hright⟩ := not_or.1 (mt List.mem_cons.2 h)
    rw [List.cons_append, divideBackwards_cons (Ne.symm hc), ih hright, List.reverse_cons,
      List.append_assoc]
    rfl

/-- **A line is divided at its last arrow**, whatever comes before. -/
theorem divide?_arrow (left : List Char) {right : List Char} (h : '>' ∉ right) :
    divide? (left ++ '=' :: '>' :: right) = some (left, right) := by
  have hreverse : (left ++ '=' :: '>' :: right).reverse =
      right.reverse ++ '>' :: '=' :: left.reverse := by
    simp only [List.reverse_append, List.reverse_cons, List.append_assoc, List.cons_append,
      List.nil_append]
  rw [divide?, hreverse, divideBackwards_arrow (mt List.mem_reverse.1 h), List.reverse_reverse,
    List.reverse_reverse, List.append_nil]

/-- A line of a corpus that is to be written. -/
inductive Row where
  /-- A line without a meaning. -/
  | ignored (line : List Char)
  /-- A case: the expression, if there is one, and what is expected. -/
  | case (expression : Option String) (expected : Expectation)

/-- How an expression is written. -/
def expressionText : Option String → List Char
  | none => missingMark
  | some expression => Text.escape expression.toList

namespace Row

/-- The line that is written for a row. -/
def text : Row → List Char
  | ignored line => line
  | case expression expected => expressionText expression ++ '=' :: '>' :: expected.text.toList

/-- The row can be written: a line without a meaning is blank or a comment, and an expression is
neither taken for a comment nor for a missing one. -/
def Writable : Row → Prop
  | ignored line =>
    '\n' ∉ line ∧ ((∀ c ∈ line, Text.isBlank c) ∨ (Text.trim line).head? = some '#')
  | case none _ => True
  | case (some expression) _ =>
    Text.trim (Text.escape expression.toList) ≠ missingMark ∧
      (Text.trim (Text.escape expression.toList)).head? ≠ some '#'

instance (row : Row) : Decidable row.Writable :=
  match row with
  | ignored line =>
    -- the line is searched, and not all characters that there are
    have : Decidable (∀ c ∈ line, Text.isBlank c) := List.decidableBAll _ line
    inferInstanceAs (Decidable (_ ∧ _))
  | case none _ => inferInstanceAs (Decidable True)
  | case (some _) _ => inferInstanceAs (Decidable (_ ∧ _))

/-- The case of a numbered row, if it is one. -/
def case? : Row × Nat → Option CorpusCase
  | (ignored _, _) => none
  | (case expression expected, number) => some ⟨number, expression, expected⟩

/-- The cases of rows, with the numbers of their lines. -/
def cases (rows : List Row) : List CorpusCase := (rows.zipIdx 1).filterMap case?

/-- A corpus has each row on a line of its own. -/
def write (rows : List Row) : String :=
  String.ofList (['\n'].intercalate (rows.map text))

variable {row : Row}

/-- A row is written on one line. -/
theorem lineFeed_not_mem_text (h : row.Writable) : '\n' ∉ row.text := by
  cases row with
  | ignored line => exact h.1
  | case expression expected =>
    have hexpression : '\n' ∉ expressionText expression := by
      cases expression with
      | none => decide
      | some expression => exact Text.lineFeed_not_mem_escape expression.toList
    have hexpected : '\n' ∉ expected.text.toList := by
      intro hmem
      exact absurd (Expectation.plain_of_mem_text hmem).1 (by decide)
    simp only [text, List.mem_append, List.mem_cons, hexpression, hexpected, or_false, false_or]
    decide

/-- A written case does not end with a carriage return, which would be taken for a part of the
line's end. -/
theorem endedLine_text_case (expression : Option String) (expected : Expectation) :
    Text.endedLine (case expression expected).text = (case expression expected).text := by
  refine Text.endedLine_of_ne fun hlast => ?_
  rw [text, List.getLast?_append_of_ne_nil _ (List.cons_ne_nil _ _)] at hlast
  have hmem : '\r' ∈ expected.text.toList := by
    simpa using List.mem_of_getLast? hlast
  exact absurd (Expectation.plain_of_mem_text hmem).1 (by decide)

/-- A row to be ignored is written as a line that is not significant. -/
theorem isSignificant_text_ignored {line : List Char} (h : (ignored line).Writable) :
    isSignificant line = false := by
  rw [isSignificant_eq, ← Text.head?_trim]
  rcases h.2 with hblank | hcomment
  · rw [Text.trim_eq_nil_iff.2 hblank]
    rfl
  · rw [hcomment]
    rfl

/-- A case is written as a significant line. -/
theorem isSignificant_text_case {expression : Option String} {expected : Expectation}
    (h : (case expression expected).Writable) :
    isSignificant (case expression expected).text = true := by
  have hfirst : (expressionText expression).find? (fun c => !Text.isBlank c) ≠ some '#' := by
    cases expression with
    | none => decide
    | some expression =>
      rw [← Text.head?_trim]
      exact h.2
  rw [isSignificant_eq, text, List.find?_append]
  cases hfind : (expressionText expression).find? (fun c => !Text.isBlank c) with
  | none => rfl
  | some c =>
    have hc : c ≠ '#' := fun heq => hfirst (heq ▸ hfind)
    exact bne_iff_ne.2 hc

/-- **The expression of a case is read back** from what is written for it. -/
theorem readExpression_expressionText {expression : Option String} {expected : Expectation}
    (h : (case expression expected).Writable) :
    readExpression (expressionText expression) = .ok expression := by
  cases expression with
  | none => rfl
  | some expression =>
    simp only [readExpression, expressionText, if_neg h.1, Text.unescape_escape,
      String.ofList_toList]

/-- **A written case is read back.** -/
theorem readCase_text {expression : Option String} {expected : Expectation}
    (h : (case expression expected).Writable) (number : Nat) :
    readCase number (case expression expected).text = .ok ⟨number, expression, expected⟩ := by
  have hright : '>' ∉ expected.text.toList :=
    fun hmem => (Expectation.plain_of_mem_text hmem).2 rfl
  have htrim : Text.trim expected.text.toList = expected.text.toList :=
    Text.trim_of_forall fun c hc => (Expectation.plain_of_mem_text hc).1
  simp only [readCase, text, divide?_arrow _ hright, htrim, Expectation.ofText?_text,
    readExpression_expressionText h]

/-- A line on which a row stands has the case of the row, and nothing is wrong with it. -/
theorem read_line (source : String) (h : row.Writable) {line : List Char}
    (hline : line = row.text ∨ line = Text.endedLine row.text) (number : Nat) :
    (if isSignificant line then Corpus.case? (line, number) else none) = case? (row, number) ∧
      (if isSignificant line then problem? source (line, number) else none) = none := by
  cases row with
  | ignored text =>
    have hsignificant : isSignificant line = false := by
      rcases hline with rfl | rfl
      · exact isSignificant_text_ignored h
      · exact (isSignificant_endedLine text).trans (isSignificant_text_ignored h)
    rw [hsignificant]
    exact ⟨rfl, rfl⟩
  | case expression expected =>
    obtain rfl : line = (case expression expected).text := by
      rcases hline with rfl | rfl
      · rfl
      · exact endedLine_text_case expression expected
    simp only [isSignificant_text_case h, if_true, Corpus.case?, problem?, readCase_text h, case?,
      and_self]

/-- What is found line by line in written rows is what the rows are for. -/
theorem filterMap_lines {β : Type} {f : List Char × Nat → Option β} {g : Row × Nat → Option β}
    {rows : List Row} (hempty : ∀ number, f ([], number) = none)
    (hline : ∀ row ∈ rows, ∀ line, line = row.text ∨ line = Text.endedLine row.text →
      ∀ number, f (line, number) = g (row, number)) (number : Nat) :
    ((Text.linesOfPieces (rows.map text)).zipIdx number).filterMap f =
      (rows.zipIdx number).filterMap g := by
  induction rows generalizing number with
  | nil => rfl
  | cons row rows ih =>
    have hrow := hline row List.mem_cons_self
    cases rows with
    | nil =>
      have hlast : f (row.text, number) = g (row, number) := hrow row.text (.inl rfl) number
      rw [List.map_singleton, Text.linesOfPieces_singleton, List.zipIdx_singleton,
        List.filterMap_cons, ← hlast]
      -- the last line is not there if nothing is written on it
      split
      · rename_i htext
        rw [htext, hempty]
        rfl
      · rw [List.zipIdx_singleton, List.filterMap_cons]
        rfl
    | cons next rows =>
      have hpieces : (next :: rows).map text ≠ [] := List.cons_ne_nil _ _
      have hrest := ih (fun row hmem => hline row (List.mem_cons_of_mem _ hmem)) (number + 1)
      rw [List.map_cons, Text.linesOfPieces_cons _ hpieces, List.zipIdx_cons, List.zipIdx_cons,
        List.filterMap_cons, List.filterMap_cons, hrest, hrow _ (.inr rfl) number]

/-- The rows of a corpus are its lines. -/
theorem lines_write {rows : List Row} (h : ∀ row ∈ rows, row.Writable) :
    Text.lines (write rows).toList = Text.linesOfPieces (rows.map text) := by
  rw [write, String.toList_ofList]
  cases rows with
  | nil => rfl
  | cons row rows =>
    have hpieces : (row :: rows).map text ≠ [] := List.cons_ne_nil _ _
    rw [Text.lines, List.splitOn_intercalate _ _ hpieces]
    intro line hmem
    obtain ⟨row, hrow, rfl⟩ := List.mem_map.1 hmem
    exact lineFeed_not_mem_text (h row hrow)

end Row

/-- **What is written is read back:** the cases in order, each with the number of its line and its
expression as it is, and nothing is wrong.  A row may be any line that is blank or a comment, so the
text may also end with a line feed, before an empty last row. -/
theorem read_write (source : String) {rows : List Row} (h : ∀ row ∈ rows, row.Writable) :
    read source (Row.write rows) = ⟨Row.cases rows, []⟩ := by
  have hread : read source (Row.write rows) =
      ⟨((Text.linesOfPieces (rows.map Row.text)).zipIdx 1).filterMap
          fun line => if isSignificant line.1 then case? line else none,
        ((Text.linesOfPieces (rows.map Row.text)).zipIdx 1).filterMap
          fun line => if isSignificant line.1 then problem? source line else none⟩ := by
    simp only [read, significantLines, Row.lines_write h, List.filterMap_filter]
  have hcases := Row.filterMap_lines
    (f := fun line => if isSignificant line.1 then case? line else none) (fun _ => rfl)
    (fun row hrow _ hline number => (Row.read_line source (h row hrow) hline number).1) 1
  have hproblems := Row.filterMap_lines (g := fun _ => none)
    (f := fun line => if isSignificant line.1 then problem? source line else none) (fun _ => rfl)
    (fun row hrow _ hline number => (Row.read_line source (h row hrow) hline number).2) 1
  rw [hread, hcases, hproblems]
  simp only [Row.cases, List.filterMap_none]

/-- An expression that looks like a line, a missing one, and lines that are passed over. -/
theorem read_write_arrows :
    (∀ row ∈ [Row.ignored "# 1 => 2".toList, .case (some "\t<none>=>\n\\q =") (.value (-5)),
        .ignored " \r".toList, .case none (.error .invalidArgument), .ignored []], row.Writable) ∧
      read "t" "# 1 => 2\n\\t<none>=>\\n\\\\q ==>-5\n \r\n<none>=>InvalidArgument\n" =
        ⟨[⟨2, some "\t<none>=>\n\\q =", .value (-5)⟩, ⟨4, none, .error .invalidArgument⟩], []⟩ := by
  have h : ∀ row ∈ [Row.ignored "# 1 => 2".toList, .case (some "\t<none>=>\n\\q =") (.value (-5)),
      .ignored " \r".toList, .case none (.error .invalidArgument), .ignored []],
      row.Writable := by
    simp only [List.forall_mem_cons]
    exact ⟨by decide, by decide, by decide, by decide, by decide, nofun⟩
  have hread := read_write "t" h
  have hwrite : Row.write [.ignored "# 1 => 2".toList,
      .case (some "\t<none>=>\n\\q =") (.value (-5)), .ignored " \r".toList,
      .case none (.error .invalidArgument), .ignored []] =
      "# 1 => 2\n\\t<none>=>\\n\\\\q ==>-5\n \r\n<none>=>InvalidArgument\n" := by
    rw [Row.write, ← String.toList_inj, String.toList_ofList]
    decide +kernel
  rw [hwrite] at hread
  exact ⟨h, hread⟩

end Corpus
end InfixCalc
