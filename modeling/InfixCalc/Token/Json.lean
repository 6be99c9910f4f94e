/-
# Tokens in JSON

A number token is written as an object with the one key `Number`, an operator token as an
object with the one key `Operator`, and a postfix sequence as a list of these:

`[{"Number":7},{"Operator":"Sub"}]`

An operator is its name, or an object with its name as the one key and `null` as the value.
Only the first form is written; both are read.
-/

import InfixCalc.Json.Writer
import InfixCalc.Token

namespace InfixCalc

namespace Json

/-- The 32-bit integer that a value is written for. -/
def int32? : Json → Option Int32
  | scalar (.number number) =>
    match number.integer? with
    | some (negative, digits) => Decimal.int32OfDigits? negative digits
    | none => none
  | _ => none

/-- The operator that a value is written for. -/
def operator? : Json → Option Operator
  | scalar (.string units) =>
    match decode? units with
    | some name => Operator.ofName? name
    | none => none
  | object [(key, scalar .null)] =>
    match decode? key with
    | some name => Operator.ofName? name
    | none => none
  | _ => none

end Json

namespace Token

/-- The JSON value of a token. -/
def toJson : Token → Json
  | number value =>
    .object [(Json.unitsOf "Number", .scalar (.number (Json.Number.ofInt value.toInt)))]
  | operator op => .object [(Json.unitsOf "Operator", .scalar (.string (Json.unitsOf op.name)))]

/-- The token that a JSON value is written for. -/
def ofJson? : Json → Option Token
  | .object [(key, value)] =>
    match Json.decode? key with
    | some "Number" => value.int32?.map number
    | some "Operator" => value.operator?.map operator
    | _ => none
  | _ => none

/-- The tokens that JSON values are written for, after the tokens before, which are latest
first. -/
def listOfJsonAfter? (before : List Token) : List Json → Option (List Token)
  | [] => some before.reverse
  | json :: rest =>
    match ofJson? json with
    | some token => listOfJsonAfter? (token :: before) rest
    | none => none

/-- The compact JSON text of a postfix sequence. -/
def listJson (tokens : List Token) : String := (Json.array (tokens.map toJson)).compact

/-- The postfix sequence that a JSON text is written for. -/
def listOfJson? (text : String) : Option (List Token) :=
  match Json.ofText? text with
  | some (.array items) => listOfJsonAfter? [] items
  | _ => none

end Token
end InfixCalc
