/-
# JSON values

A JSON value is a scalar, a list of values, or an object, whose members keep their order and
may repeat a key.  Numbers are kept as they are written, since only the digits tell whether a
number is an integer and whether it fits.  Strings are kept as the units that are written:
a string may hold a `\u` escape that stands for half of a surrogate pair, so not every string
denotes a text.  `Json.decode?` gives the text of a string that does.

A JSON text is a sequence of lexemes with blanks between them.
-/

namespace InfixCalc
namespace Json

/-- One character of a string, or one `\u` escape. -/
inductive StringUnit where
  /-- A character that stands for itself or is written by a short escape. -/
  | char (c : Char)
  /-- The sixteen bits of a `\u` escape. -/
  | code (bits : UInt16)
  deriving DecidableEq, Repr

/-- The exponent of a number: `e` or `E`, a sign if there is one, and digits. -/
structure Exponent where
  mark : Char
  sign : Option Char
  digits : List Char
  deriving DecidableEq, Repr

/-- A number as it is written. -/
structure Number where
  negative : Bool
  /-- The digits before the point. -/
  whole : List Char
  /-- The digits after the point, if there is one. -/
  fraction : Option (List Char)
  exponent : Option Exponent
  deriving DecidableEq, Repr

/-- The values that hold no others. -/
inductive Scalar where
  | null
  | bool (value : Bool)
  | number (value : Number)
  | string (units : List StringUnit)
  deriving DecidableEq, Repr

/-- The least parts of a JSON text. -/
inductive Lexeme where
  | openBrace
  | closeBrace
  | openBracket
  | closeBracket
  | comma
  | colon
  | scalar (value : Scalar)
  deriving DecidableEq, Repr

end Json

/-- A JSON value. -/
inductive Json where
  | scalar (value : Json.Scalar)
  | array (items : List Json)
  | object (members : List (List Json.StringUnit × Json))

namespace Json

/-- The bits are the first half of a surrogate pair. -/
def isHighSurrogate (bits : UInt16) : Bool := 0xD800 ≤ bits && bits ≤ 0xDBFF

/-- The bits are the second half of a surrogate pair. -/
def isLowSurrogate (bits : UInt16) : Bool := 0xDC00 ≤ bits && bits ≤ 0xDFFF

/-- The character of a surrogate pair: ten bits from each half. -/
def charOfPair (high low : UInt16) : Char :=
  Char.ofNat (0x10000 + (high.toNat - 0xD800) * 0x400 + (low.toNat - 0xDC00))

/-- Puts the text of string units after the characters of `before`, which are latest first;
fails at a half of a surrogate pair without its other half. -/
def decodeAfter (before : List Char) : List StringUnit → Option (List Char)
  | [] => some before.reverse
  | .char c :: rest => decodeAfter (c :: before) rest
  | .code high :: .code low :: rest =>
    if isHighSurrogate high then
      if isLowSurrogate low then decodeAfter (charOfPair high low :: before) rest else none
    else if isLowSurrogate high then none
    else decodeAfter (Char.ofNat high.toNat :: before) (.code low :: rest)
  | .code bits :: rest =>
    if isHighSurrogate bits || isLowSurrogate bits then none
    else decodeAfter (Char.ofNat bits.toNat :: before) rest

/-- The text that a string denotes, if it denotes one. -/
def decode? (units : List StringUnit) : Option String :=
  (decodeAfter [] units).map String.ofList

/-- The string units of a text: every character stands for itself. -/
def unitsOf (text : String) : List StringUnit := text.toList.map .char

/-- The number without fraction and exponent that has this value. -/
def Number.ofInt (n : Int) : Number := ⟨n < 0, (toString n.natAbs).toList, none, none⟩

/-- The sign and digits of a number that is written as an integer.  Minus zero is none. -/
def Number.integer? (number : Number) : Option (Bool × List Char) :=
  if number.fraction.isSome || number.exponent.isSome || (number.negative && number.whole == ['0'])
  then none
  else some (number.negative, number.whole)

end Json
end InfixCalc
