/-
# A cursor over a text

A cursor splits a text into what has been read and what is still to come; its position is
the number of characters read.  It only moves forward, and a move over characters of one kind takes
all of them that come next (`Cursor.moveWhile_eq`).
-/

import InfixCalc.Error
import InfixCalc.CharClass

namespace InfixCalc

/-- A place in a text. -/
structure Cursor where
  /-- The characters before the place, the nearest first. -/
  before : List Char
  /-- The characters after the place, the nearest first. -/
  after : List Char
  deriving Repr

namespace Cursor

/-- A cursor at the start of a text. -/
def ofText (text : List Char) : Cursor := ⟨[], text⟩

/-- The whole text. -/
def text (cursor : Cursor) : List Char := cursor.before.reverse ++ cursor.after

/-- How many characters have been read. -/
def position (cursor : Cursor) : Nat := cursor.before.length

/-- How many characters the whole text has. -/
def length (cursor : Cursor) : Nat := cursor.before.length + cursor.after.length

/-- The whole text has no character. -/
def isEmpty (cursor : Cursor) : Bool := cursor.length == 0

/-- Nothing is left to read. -/
def isAtEnd (cursor : Cursor) : Bool := cursor.after.isEmpty

/-- The next character. -/
def peek? (cursor : Cursor) : Option Char := cursor.after.head?

/-- Moves past the next character, if there is one. -/
def advance : Cursor → Cursor
  | ⟨before, c :: after⟩ => ⟨c :: before, after⟩
  | ⟨before, []⟩ => ⟨before, []⟩

/-- Moves past the characters that satisfy `p`, up to the first that does not. -/
def moveWhile (p : Char → Bool) (before : List Char) : List Char → Cursor
  | [] => ⟨before, []⟩
  | c :: after => if p c then moveWhile p (c :: before) after else ⟨before, c :: after⟩

/-- Moves to the next character that is no separator. -/
def skipSeparators (cursor : Cursor) : Cursor :=
  moveWhile Text.isBlank cursor.before cursor.after

/-- Moves past the digits that come next. -/
def skipDigits (cursor : Cursor) : Cursor := moveWhile Char.isDigit cursor.before cursor.after

/-- The digits that come next. -/
def digits (cursor : Cursor) : List Char := cursor.after.takeWhile Char.isDigit

/-- Reads the digits that come next as a literal and moves past all of them, also when the
literal is too large.  No digit reads as zero. -/
def readNumber (cursor : Cursor) : Except ParseError Int32 × Cursor :=
  match Decimal.int32OfDigits? false cursor.digits with
  | some value => (.ok value, cursor.skipDigits)
  | none => (.error (.overflow (String.ofList cursor.digits) cursor.position), cursor.skipDigits)

/-- The character at a position is unexpected; the last one, if the position is past the end. -/
def unexpectedAt (cursor : Cursor) (position : Nat) : ParseError :=
  ParseError.unexpectedAt cursor.text position

/-- The next character is unexpected; the last one, if none is left. -/
def unexpected (cursor : Cursor) : ParseError := cursor.unexpectedAt cursor.position

/-- **A move over characters of one kind** takes all of them that come next, and no more. -/
theorem moveWhile_eq (p : Char → Bool) (before after : List Char) :
    moveWhile p before after =
      ⟨(after.takeWhile p).reverse ++ before, after.dropWhile p⟩ := by
  induction after generalizing before with
  | nil => rfl
  | cons c after ih => by_cases h : p c <;> simp [moveWhile, h, ih]

end Cursor
end InfixCalc
