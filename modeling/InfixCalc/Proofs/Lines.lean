/-
# Where a text may be cut

The lines of a text are those up to one of its line feeds, and then those of what follows
(`Text.lines_append_lineFeed`).  So a text that ends where a line ends may be followed by any
other text without a change to the lines of either (`Text.lines_append`), and it has as many lines
as line feeds (`Text.length_lines`).

`Text.linesOfPieces_cons` gives the lines one by one; the last piece alone is treated differently.
-/

import InfixCalc.Text.Lines
import Mathlib.Data.List.Basic

namespace InfixCalc
namespace Text

/-- The text ends where a line ends: it is empty, or a line feed is its last character. -/
def EndsLine (text : List Char) : Prop := text = [] ∨ text.getLast? = some '\n'

/-- A line without a carriage return at its end is kept as it is. -/
theorem endedLine_of_ne {line : List Char} (h : line.getLast? ≠ some '\r') :
    endedLine line = line := by
  unfold endedLine
  split
  · contradiction
  · rfl

/-- All pieces but the last are lines that a line feed ends. -/
theorem linesOfPieces_append (first : List (List Char)) {rest : List (List Char)}
    (h : rest ≠ []) :
    linesOfPieces (first ++ rest) = first.map endedLine ++ linesOfPieces rest := by
  rw [linesOfPieces, linesOfPieces, List.dropLast_append_of_ne_nil h, List.map_append,
    List.getLast?_append_of_ne_nil first h, List.append_assoc]

/-- A piece that others follow is a line that a line feed ends. -/
theorem linesOfPieces_cons (piece : List Char) {pieces : List (List Char)} (h : pieces ≠ []) :
    linesOfPieces (piece :: pieces) = endedLine piece :: linesOfPieces pieces :=
  linesOfPieces_append [piece] h

/-- The last piece is a line unless it is empty. -/
theorem linesOfPieces_singleton (piece : List Char) :
    linesOfPieces [piece] = if piece = [] then [] else [piece] := by
  cases piece <;> rfl

/-- **A line feed ends a line.**  What follows it has lines of its own. -/
theorem lines_append_lineFeed (first rest : List Char) :
    lines (first ++ '\n' :: rest) = (first.splitOn '\n').map endedLine ++ lines rest := by
  rw [lines, List.splitOn_append_cons_self, linesOfPieces_append _ (List.splitOn_ne_nil _ _)]
  rfl

/-- A text that ends where a line ends is empty, or one line or more and then a line feed. -/
theorem EndsLine.cases {text : List Char} (h : EndsLine text) :
    text = [] ∨ ∃ first, text = first ++ ['\n'] := by
  rcases h with rfl | h
  · exact .inl rfl
  · obtain ⟨first, rfl⟩ := List.getLast?_eq_some_iff.1 h
    exact .inr ⟨first, rfl⟩

/-- **A text may be cut where a line ends.** -/
theorem lines_append {first : List Char} (h : EndsLine first) (rest : List Char) :
    lines (first ++ rest) = lines first ++ lines rest := by
  obtain rfl | ⟨first, rfl⟩ := h.cases
  · rfl
  · have hnil : lines [] = [] := rfl
    rw [List.append_assoc, List.singleton_append, lines_append_lineFeed, lines_append_lineFeed,
      hnil, List.append_nil]

/-- There is one piece more than there are line feeds. -/
theorem length_splitOn_lineFeed (text : List Char) :
    (text.splitOn '\n').length = text.count '\n' + 1 := by
  induction text with
  | nil => rfl
  | cons c text ih =>
    rw [List.splitOn_cons_eq_if_modifyHead, List.count_cons]
    split
    · rw [List.length_cons, ih]
    · rw [List.length_modifyHead, ih, Nat.add_zero]

/-- **Each line feed ends one line.** -/
theorem length_lines {text : List Char} (h : EndsLine text) :
    (lines text).length = text.count '\n' := by
  obtain rfl | ⟨first, rfl⟩ := h.cases
  · rfl
  · have hnil : lines [] = [] := rfl
    rw [lines_append_lineFeed, hnil, List.append_nil, List.length_map, length_splitOn_lineFeed,
      List.count_append]
    rfl

end Text
end InfixCalc
