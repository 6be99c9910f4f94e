/-
# Lexemes

The lexemes of an expression are its literals (runs of digits, as long as possible), its
parentheses and operators, and any other character by itself.  Separators are no lexemes:
they only keep two literals apart.

`Lexeme.readFrom` reads a text from its end: each character is put in front of the lexemes
that follow it, and a digit directly before a literal joins it.
-/

import InfixCalc.CharClass

namespace InfixCalc

/-- The least parts of an expression. -/
inductive Lexeme where
  /-- A literal has a first digit and the digits after it. -/
  | literal (first : Char) (more : List Char)
  | openParen
  | closeParen
  | operator (op : Operator)
  /-- A character that has no place in an expression. -/
  | unknown (c : Char)
  deriving DecidableEq, Repr

namespace Lexeme

/-- The first character of a lexeme. -/
def head : Lexeme → Char
  | literal first _ => first
  | openParen => '('
  | closeParen => ')'
  | operator op => op.symbol
  | unknown c => c

/-- The characters of a lexeme. -/
def chars : Lexeme → List Char
  | literal first more => first :: more
  | lexeme => [lexeme.head]

end Lexeme

/-- A lexeme and the position of its first character. -/
structure Placed where
  lexeme : Lexeme
  position : Nat
  deriving DecidableEq, Repr

namespace Placed

/-- A digit at a position, before the lexemes that follow it: part of the literal that starts
at the next position, if one does, and otherwise a literal by itself. -/
def consDigit (digit : Char) (position : Nat) (following : List Placed) : List Placed :=
  match following with
  | ⟨.literal first more, next⟩ :: rest =>
    if next = position + 1 then ⟨.literal digit (first :: more), position⟩ :: rest
    else ⟨.literal digit [], position⟩ :: following
  | _ => ⟨.literal digit [], position⟩ :: following

/-- A character at a position, before the lexemes that follow it. -/
def consChar (c : Char) (position : Nat) (following : List Placed) : List Placed :=
  match CharClass.of c with
  | .separator => following
  | .digit => consDigit c position following
  | .openParen => ⟨.openParen, position⟩ :: following
  | .closeParen => ⟨.closeParen, position⟩ :: following
  | .operator op => ⟨.operator op, position⟩ :: following
  | .other => ⟨.unknown c, position⟩ :: following

end Placed

namespace Lexeme

/-- The lexemes of a text whose first character has the given position. -/
def readFrom (position : Nat) (text : List Char) : List Placed :=
  (text.zipIdx position).foldr (fun (c, place) following => Placed.consChar c place following) []

/-- The lexemes of an expression with their positions, in order. -/
def read (text : List Char) : List Placed := readFrom 0 text

/-- Nothing is read from an empty text. -/
@[simp] theorem readFrom_nil (position : Nat) : readFrom position [] = [] := rfl

/-- A text is read from its end: its first character is put before what the rest is read as. -/
@[simp] theorem readFrom_cons (position : Nat) (c : Char) (text : List Char) :
    readFrom position (c :: text) = Placed.consChar c position (readFrom (position + 1) text) :=
  rfl

end Lexeme
end InfixCalc
