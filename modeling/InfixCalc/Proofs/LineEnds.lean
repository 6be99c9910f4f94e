/-
# Either line end will do

A line feed may have a carriage return before it, and both together end the line.  So a text without
carriage returns has the same lines if one is put before each of its line feeds
(`Text.lines_withReturns`), with a line feed at its end or without.  A corpus is read and checked
line by line, and a line is shown as it is, so nothing about the corpus changes
(`Corpus.check_withReturns`).

A text is taken apart at its first line feed (`Text.lineInduction`).
-/

import InfixCalc.Corpus.Check
import InfixCalc.Proofs.Lines

namespace InfixCalc
namespace Text

/-- The text with a carriage return before each line feed. -/
def withReturns (text : List Char) : List Char :=
  text.flatMap fun c => if c = '\n' then ['\r', '\n'] else [c]

/-- Induction on the lines of a text: the last one, and one in front of others. -/
@[elab_as_elim]
theorem lineInduction {motive : List Char → Prop} (hlast : ∀ line, '\n' ∉ line → motive line)
    (hline : ∀ line rest, '\n' ∉ line → motive rest → motive (line ++ '\n' :: rest))
    (text : List Char) : motive text := by
  by_cases hmem : '\n' ∈ text
  · obtain ⟨line, rest, rfl, hnotMem⟩ := List.eq_append_cons_of_mem hmem
    exact hline line rest hnotMem (lineInduction hlast hline rest)
  · exact hlast text hmem
termination_by text.length
decreasing_by
  subst_vars
  simp only [List.length_append, List.length_cons]
  omega

/-- A line without a line feed gets no carriage return. -/
theorem withReturns_of_notMem {line : List Char} (h : '\n' ∉ line) : withReturns line = line := by
  have hkept : ∀ c ∈ line, (if c = '\n' then ['\r', '\n'] else [c]) = [c] := by
    intro c hc
    exact if_neg fun heq => h (by rwa [heq] at hc)
  rw [withReturns, List.flatMap_congr hkept, List.flatMap_singleton']

/-- A carriage return comes before the first line feed, and the rest is treated in the same way. -/
theorem withReturns_append_lineFeed {line : List Char} (h : '\n' ∉ line) (rest : List Char) :
    withReturns (line ++ '\n' :: rest) = (line ++ ['\r']) ++ '\n' :: withReturns rest := by
  have hsplit : withReturns (line ++ '\n' :: rest) =
      withReturns line ++ withReturns ('\n' :: rest) := List.flatMap_append
  rw [hsplit, withReturns_of_notMem h, List.append_assoc]
  rfl

/-- A carriage return at the end of a line belongs to the line end. -/
theorem endedLine_append_return (line : List Char) : endedLine (line ++ ['\r']) = line := by
  rw [endedLine, List.getLast?_concat]
  exact List.dropLast_concat

/-- The first line of a text, and then those of the rest. -/
theorem lines_cons {line : List Char} (h : '\n' ∉ line) (rest : List Char) :
    lines (line ++ '\n' :: rest) = endedLine line :: lines rest := by
  rw [lines_append_lineFeed, List.splitOn_eq_singleton h]
  rfl

/-- **Either line end will do:** a text without carriage returns has the same lines with one before
each line feed. -/
theorem lines_withReturns {text : List Char} (h : '\r' ∉ text) :
    lines (withReturns text) = lines text := by
  induction text using lineInduction with
  | hlast line hline => rw [withReturns_of_notMem hline]
  | hline line rest hline ih =>
    have hreturned : '\n' ∉ line ++ ['\r'] := by simpa using hline
    have hlast : line.getLast? ≠ some '\r' :=
      fun hlast => h (List.mem_append_left _ (List.mem_of_getLast? hlast))
    have hrest : '\r' ∉ rest :=
      fun hmem => h (List.mem_append_right _ (List.mem_cons_of_mem _ hmem))
    rw [withReturns_append_lineFeed hline, lines_cons hreturned, endedLine_append_return,
      lines_cons hline, endedLine_of_ne hlast, ih hrest]

end Text

namespace Corpus

/-- **Either line end will do in a corpus.**  A corpus without carriage returns has the same cases
and the same malformed lines with one before each line feed, and the same report. -/
theorem check_withReturns (calculator : Calculator) (source : String) {text : String}
    (h : '\r' ∉ text.toList) :
    let returned := String.ofList (Text.withReturns text.toList)
    read source returned = read source text ∧
      check calculator source returned = check calculator source text := by
  intro returned
  have hlines : significantLines returned.toList = significantLines text.toList := by
    rw [String.toList_ofList, significantLines, significantLines, Text.lines_withReturns h]
  have hread : read source returned = read source text := by
    rw [read, read, hlines]
  exact ⟨hread, by rw [check, check, hread]⟩

/-- A case with a space at its end, a malformed line, and a case that does not pass on a last line
that no line feed ends. -/
theorem check_withReturns_three_lines :
    '\r' ∉ "1+1 => 2\n\n# x\n 3 \n4/0=>4".toList ∧
      read "t" "1+1 => 2\r\n\r\n# x\r\n 3 \r\n4/0=>4" =
        ⟨[⟨1, some "1+1 ", .value 2⟩, ⟨5, some "4/0", .value 4⟩],
          [⟨.error, "t", some 4, "缺少 '=>' 分隔符", some " 3 "⟩]⟩ ∧
      (check {} "t" "1+1 => 2\r\n\r\n# x\r\n 3 \r\n4/0=>4").value.passed = 1 := by
  have h : '\r' ∉ "1+1 => 2\n\n# x\n 3 \n4/0=>4".toList := by decide
  have hreturned : String.ofList (Text.withReturns "1+1 => 2\n\n# x\n 3 \n4/0=>4".toList) =
      "1+1 => 2\r\n\r\n# x\r\n 3 \r\n4/0=>4" := by decide
  have hcheck := check_withReturns {} "t" h
  simp only [hreturned] at hcheck
  refine ⟨h, hcheck.1.trans ?_, ?_⟩
  · rfl
  · rw [hcheck.2]
    rfl

end Corpus
end InfixCalc
