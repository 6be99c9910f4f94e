/-
# Reading a JSON value

The lexemes of a value are read in one pass with a stack of the lists and objects that are
still open, so values may be nested to any depth.

| state | what may come next |
| --- | --- |
| `value` | a scalar, `[` or `{` |
| `firstItem` | a value or `]` |
| `firstKey` | a string or `}` |
| `key` | a string |
| `colon` | `:` |
| `complete` | `,` or the closing mark of the open list or object; the end, if none is open |

A comma is followed by another item or member, never by a closing mark.
`Json.ofText?` reads a whole text as one value.
-/

import InfixCalc.Json.Lexer

namespace InfixCalc
namespace Json

/-- The members of an object. -/
abbrev Members := List (List StringUnit × Json)

/-- A list or an object in which a value is still to come. -/
inductive Frame where
  /-- A list, with the items before the value, the latest first. -/
  | item (before : List Json)
  /-- An object, with the members before the value, the latest first, and the value's key. -/
  | member (before : Members) (key : List StringUnit)

/-- How far a value has been read. -/
inductive State where
  | value (frames : List Frame)
  | firstItem (frames : List Frame)
  | firstKey (frames : List Frame)
  | key (before : Members) (frames : List Frame)
  | colon (before : Members) (key : List StringUnit) (frames : List Frame)
  | complete (value : Json) (frames : List Frame)

namespace State

/-- The state after the first lexeme of a value. -/
def beginValue? (frames : List Frame) : Lexeme → Option State
  | .scalar leaf => some (complete (.scalar leaf) frames)
  | .openBracket => some (firstItem frames)
  | .openBrace => some (firstKey frames)
  | _ => none

/-- The state after the key of a member. -/
def beginMember? (before : Members) (frames : List Frame) : Lexeme → Option State
  | .scalar (.string name) => some (colon before name frames)
  | _ => none

/-- The state after a lexeme that follows a value. -/
def continue? (json : Json) : List Frame → Lexeme → Option State
  | .item before :: frames, .comma => some (value (.item (json :: before) :: frames))
  | .item before :: frames, .closeBracket =>
    some (complete (.array (json :: before).reverse) frames)
  | .member before name :: frames, .comma => some (key ((name, json) :: before) frames)
  | .member before name :: frames, .closeBrace =>
    some (complete (.object ((name, json) :: before).reverse) frames)
  | _, _ => none

/-- The state after one lexeme more. -/
def step? : State → Lexeme → Option State
  | value frames, lexeme => beginValue? frames lexeme
  | firstItem frames, .closeBracket => some (complete (.array []) frames)
  | firstItem frames, lexeme => beginValue? (.item [] :: frames) lexeme
  | firstKey frames, .closeBrace => some (complete (.object []) frames)
  | firstKey frames, lexeme => beginMember? [] frames lexeme
  | key before frames, lexeme => beginMember? before frames lexeme
  | colon before name frames, .colon => some (value (.member before name :: frames))
  | colon _ _ _, _ => none
  | complete json frames, lexeme => continue? json frames lexeme

/-- The state after further lexemes. -/
def run? (state : State) : List Lexeme → Option State
  | [] => some state
  | lexeme :: lexemes =>
    match state.step? lexeme with
    | some state => state.run? lexemes
    | none => none

/-- The value that has been read, if it is complete and nothing is open. -/
def result? : State → Option Json
  | complete json [] => some json
  | _ => none

end State

/-- The value that lexemes are the parts of. -/
def ofLexemes? (lexemes : List Lexeme) : Option Json :=
  match (State.value []).run? lexemes with
  | some state => state.result?
  | none => none

/-- The value that a text is written for. -/
def ofText? (text : String) : Option Json :=
  match Lexeme.readAll? text.toList with
  | some lexemes => ofLexemes? lexemes
  | none => none

end Json
end InfixCalc
