/-
# Quoted names

A file path is logged in double quotes, in a form that shows every character.  Inside, a
double quote and a backslash follow a backslash, and the usual control characters have short
escapes.  The space stands for itself, and so does every other character with a shape of its
own; one without is written by its code point, and a byte that belongs to no character by its
value.

Besides blanks, marks and code points that are not assigned, three kinds of characters have no
shape to be seen.

| kind | what it is for |
| --- | --- |
| control | controls a device: tab, line feed, escape |
| format | controls how its surroundings are set, or fills the place of a letter |
| private | has a meaning only by agreement |

The tables hold the characters of Unicode 17.
-/

import InfixCalc.Text.Blank
import InfixCalc.Text.Mark
import InfixCalc.Text.Unassigned
import InfixCalc.Text.Utf8

namespace InfixCalc
namespace Text

/-- The code points of the control characters, as inclusive ranges in increasing order. -/
def controlRanges : List (Nat × Nat) := [(0x0000, 0x001F), (0x007F, 0x009F)]

/-- The code points of the format characters and the Hangul fillers, as inclusive ranges in
increasing order. -/
def formatRanges : List (Nat × Nat) :=
  [(0x00AD, 0x00AD), (0x0600, 0x0605), (0x061C, 0x061C), (0x06DD, 0x06DD), (0x070F, 0x070F),
   (0x0890, 0x0891), (0x08E2, 0x08E2), (0x115F, 0x1160), (0x180E, 0x180E), (0x200B, 0x200F),
   (0x202A, 0x202E), (0x2060, 0x2064), (0x2066, 0x206F), (0x3164, 0x3164), (0xFEFF, 0xFEFF),
   (0xFFA0, 0xFFA0), (0xFFF9, 0xFFFB), (0x110BD, 0x110BD), (0x110CD, 0x110CD), (0x13430, 0x1343F),
   (0x1BCA0, 0x1BCA3), (0x1D173, 0x1D17A), (0xE0001, 0xE0001), (0xE0020, 0xE007F)]

/-- The code points for private use, as inclusive ranges in increasing order. -/
def privateRanges : List (Nat × Nat) :=
  [(0xE000, 0xF8FF), (0xF0000, 0xFFFFD), (0x100000, 0x10FFFD)]

/-- The character is a control character. -/
def isControl (c : Char) : Bool := inRanges controlRanges c.toNat

/-- The character is a format character or a Hangul filler. -/
def isFormat (c : Char) : Bool := inRanges formatRanges c.toNat

/-- The character is for private use. -/
def isPrivate (c : Char) : Bool := inRanges privateRanges c.toNat

example : apart controlRanges ∧ apart formatRanges ∧ apart privateRanges := by decide

example : countRanges controlRanges = 65 ∧ countRanges formatRanges = 174 := by decide

/-- The character has no shape that shows by itself what it is. -/
def isShapeless (c : Char) : Bool :=
  isControl c || isBlank c || isFormat c || isPrivate c || isMark c || isUnassigned c

/-- How a character is written inside quotes. -/
def quotedChar (c : Char) : List Char :=
  match c with
  | '\x00' => ['\\', '0']
  | '\t' => ['\\', 't']
  | '\n' => ['\\', 'n']
  | '\r' => ['\\', 'r']
  | '\\' => ['\\', '\\']
  | '"' => ['\\', '"']
  | ' ' => [' ']
  | c =>
    if isShapeless c then ['\\', 'u', '{'] ++ Nat.toDigits 16 c.toNat ++ ['}']
    else [c]

/-- How a byte that belongs to no character is written inside quotes. -/
def quotedByte (byte : UInt8) : List Char :=
  ['\\', 'x', (Nat.digitChar (byte.toNat / 16)).toUpper, (Nat.digitChar (byte.toNat % 16)).toUpper]

/-- How a piece of bytes is written inside quotes. -/
def quotedPiece : Utf8.Piece → List Char
  | .character c => quotedChar c
  | .broken bytes => bytes.flatMap quotedByte

/-- Bytes in double quotes. -/
def quoted (bytes : List UInt8) : String :=
  String.ofList ('"' :: (Utf8.pieces bytes).flatMap quotedPiece ++ ['"'])

/-- **A text in quotes** is written character by character. -/
theorem quoted_bytes (text : String) :
    quoted (Utf8.bytes text) = String.ofList ('"' :: text.toList.flatMap quotedChar ++ ['"']) := by
  rw [quoted, Utf8.pieces_bytes, List.flatMap_map]
  rfl

end Text
end InfixCalc
