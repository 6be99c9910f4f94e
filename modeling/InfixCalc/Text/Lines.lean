/-
# Lines

A line feed ends a line, and a carriage return directly before it belongs to the line end.
What follows the last line feed is a line only if it is not empty; a carriage return at its
end is kept.

A text that must stay on one line is written with four escapes: `\t`, `\n`, `\r` and `\\` for
the tab, the line feed, the carriage return and the backslash.  All other characters stand for
themselves.
-/

namespace InfixCalc
namespace Text

/-- The line that a line feed ends, without the carriage return before it. -/
def endedLine (chars : List Char) : List Char :=
  match chars.getLast? with
  | some '\r' => chars.dropLast
  | _ => chars

/-- The lines of the pieces between line feeds. -/
def linesOfPieces (pieces : List (List Char)) : List (List Char) :=
  pieces.dropLast.map endedLine ++
    match pieces.getLast? with
    | none | some [] => []
    | some last => [last]

/-- The lines of a text. -/
def lines (text : List Char) : List (List Char) := linesOfPieces (text.splitOn '\n')

/-- What is wrong with an escape. -/
inductive EscapeError where
  /-- The character after a backslash starts no escape. -/
  | unknown (c : Char)
  /-- The text ends with a lone backslash. -/
  | unfinished
  deriving DecidableEq, Repr

/-- Writes a text with escapes. -/
def escape (text : List Char) : List Char :=
  text.flatMap fun
    | '\t' => ['\\', 't']
    | '\n' => ['\\', 'n']
    | '\r' => ['\\', 'r']
    | '\\' => ['\\', '\\']
    | c => [c]

/-- Reads a text with escapes, after the characters before, which are latest first. -/
def unescapeAfter (before : List Char) : List Char → Except EscapeError (List Char)
  | [] => .ok before.reverse
  | '\\' :: 't' :: rest => unescapeAfter ('\t' :: before) rest
  | '\\' :: 'n' :: rest => unescapeAfter ('\n' :: before) rest
  | '\\' :: 'r' :: rest => unescapeAfter ('\r' :: before) rest
  | '\\' :: '\\' :: rest => unescapeAfter ('\\' :: before) rest
  | '\\' :: c :: _ => .error (.unknown c)
  | ['\\'] => .error .unfinished
  | c :: rest => unescapeAfter (c :: before) rest

/-- Reads a text with escapes. -/
def unescape (text : List Char) : Except EscapeError (List Char) := unescapeAfter [] text

end Text
end InfixCalc
