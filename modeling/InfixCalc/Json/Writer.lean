/-
# Writing a JSON value

A value is written as its lexemes, and a lexeme as its characters.  The compact form puts
nothing between lexemes.  In the pretty form of an object every member has a line of its own,
indented by two spaces, with a space after the colon.

A string is written with a backslash only where JSON asks for one.
-/

import InfixCalc.Json.Reader

namespace InfixCalc
namespace Json

/-- The hexadecimal digit of a number below sixteen. -/
def hexDigit (n : Nat) : Char :=
  if n < 10 then Char.ofNat ('0'.toNat + n) else Char.ofNat ('a'.toNat + (n - 10))

/-- A `\u` escape. -/
def escapeOf (bits : Nat) : List Char :=
  ['\\', 'u', hexDigit (bits / 4096 % 16), hexDigit (bits / 256 % 16),
    hexDigit (bits / 16 % 16), hexDigit (bits % 16)]

/-- How a unit of a string is written. -/
def StringUnit.chars : StringUnit → List Char
  | .char '"' => ['\\', '"']
  | .char '\\' => ['\\', '\\']
  | .char '\n' => ['\\', 'n']
  | .char '\r' => ['\\', 'r']
  | .char '\t' => ['\\', 't']
  | .char '\x08' => ['\\', 'b']
  | .char '\x0c' => ['\\', 'f']
  | .char c => if c.toNat < 0x20 then escapeOf c.toNat else [c]
  | .code bits => escapeOf bits.toNat

/-- How an exponent is written. -/
def Exponent.chars (exponent : Exponent) : List Char :=
  exponent.mark :: exponent.sign.toList ++ exponent.digits

/-- How a number is written. -/
def Number.chars (number : Number) : List Char :=
  (if number.negative then ['-'] else []) ++ number.whole ++
    (match number.fraction with
      | some digits => '.' :: digits
      | none => []) ++
    (match number.exponent with
      | some exponent => exponent.chars
      | none => [])

/-- How a scalar is written. -/
def Scalar.chars : Scalar → List Char
  | null => "null".toList
  | bool true => "true".toList
  | bool false => "false".toList
  | number value => value.chars
  | string units => '"' :: units.flatMap StringUnit.chars ++ ['"']

/-- How a lexeme is written. -/
def Lexeme.chars : Lexeme → List Char
  | openBrace => ['{']
  | closeBrace => ['}']
  | openBracket => ['[']
  | closeBracket => [']']
  | comma => [',']
  | colon => [':']
  | scalar value => value.chars

/-- The lexemes of a value. -/
def lexemes : Json → List Lexeme
  | scalar value => [.scalar value]
  | array items => .openBracket :: [.comma].intercalate (items.map lexemes) ++ [.closeBracket]
  | object members =>
    .openBrace ::
      [.comma].intercalate (members.map fun member =>
        .scalar (.string member.1) :: .colon :: lexemes member.2) ++ [.closeBrace]
termination_by json => sizeOf json
decreasing_by
  · rename_i h; have := List.sizeOf_lt_of_mem h; simp only [array.sizeOf_spec]; omega
  · rename_i h
    have h₁ := List.sizeOf_lt_of_mem h
    have h₂ : sizeOf member.2 < sizeOf member := by
      cases member
      simp only [Prod.mk.sizeOf_spec]
      omega
    simp only [object.sizeOf_spec]
    omega

/-- The text of a value without any blanks. -/
def compact (json : Json) : String := String.ofList (json.lexemes.flatMap Lexeme.chars)

/-- The text of an object with a line for each member.  Values are written compactly. -/
def prettyObject (members : Members) : String :=
  match members with
  | [] => "\x7b\x7d"
  | members =>
    "\x7b\n  " ++
      ",\n  ".intercalate (members.map fun (key, value) =>
        (scalar (.string key)).compact ++ ": " ++ value.compact) ++ "\n\x7d"

end Json
end InfixCalc
