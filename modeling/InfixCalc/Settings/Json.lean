/-
# Settings in JSON

Settings are written as an object with the keys `max_input_len` and `trace_postfix`.

| key | value | absent |
| --- | --- | --- |
| `max_input_len` | `null`, or an integer from 0 to the largest unsigned 64-bit integer | `null` |
| `trace_postfix` | `true` or `false` | `false` |

An object is read whatever the order of its members and whatever other keys it has; neither
of the two keys may be repeated.  A list of at most two values is read as well, as the two
settings in the order of the table.  Settings that are read have to be valid.
-/

import InfixCalc.Decimal
import InfixCalc.Json.Writer
import InfixCalc.Settings

namespace InfixCalc

namespace Json

/-- The boolean that a value is. -/
def bool? : Json → Option Bool
  | scalar (.bool value) => some value
  | _ => none

/-- The limit that a value is written for; `null` is no limit. -/
def limit? : Json → Option (Option UInt64)
  | scalar .null => some none
  | scalar (.number number) =>
    match number.integer? with
    | some (false, digits) =>
      (Decimal.valueWithin? Decimal.uint64Max digits).map fun limit => some (UInt64.ofNat limit)
    | _ => none
  | _ => none

/-- The members with their keys as texts, after those before, which are latest first. -/
def textKeysAfter? (before : List (String × Json)) : Members → Option (List (String × Json))
  | [] => some before.reverse
  | (key, value) :: rest =>
    match decode? key with
    | some key => textKeysAfter? ((key, value) :: before) rest
    | none => none

/-- The values of the members with this key. -/
def valuesAt (key : String) (members : List (String × Json)) : List Json :=
  (members.filter fun member => member.1 == key).map Prod.snd

end Json

namespace Settings

/-- The key of the limit. -/
def maxLengthKey : String := "max_input_len"

/-- The key of the flag. -/
def tracePostfixKey : String := "trace_postfix"

/-- What the values given for a setting say: nothing means the default, one is read, and more
are too many. -/
def readSetting? {α : Type} (default : α) (read? : Json → Option α) : List Json → Option α
  | [] => some default
  | [json] => read? json
  | _ => none

/-- The settings for which these values are given. -/
def ofValues? (limits flags : List Json) : Option Settings :=
  match readSetting? none Json.limit? limits, readSetting? false Json.bool? flags with
  | some maxLength, some tracePostfix => some ⟨maxLength, tracePostfix⟩
  | _, _ => none

/-- The settings that a JSON value is written for. -/
def ofJson? : Json → Option Settings
  | .object members =>
    match Json.textKeysAfter? [] members with
    | some members =>
      ofValues? (Json.valuesAt maxLengthKey members) (Json.valuesAt tracePostfixKey members)
    | none => none
  | .array items => if items.length ≤ 2 then ofValues? (items.take 1) (items.drop 1) else none
  | _ => none

/-- The settings that a JSON text is written for, if they are valid. -/
def ofJsonText (text : String) : Except SettingsError Settings :=
  match Json.ofText? text with
  | none => .error (.serialization "不是 JSON 文本")
  | some json =>
    match ofJson? json with
    | none => .error (.serialization "不是配置")
    | some settings =>
      match settings.validate with
      | .ok () => .ok settings
      | .error e => .error e

/-- The members of the JSON object of settings. -/
def jsonMembers (settings : Settings) : Json.Members :=
  [(Json.unitsOf maxLengthKey,
      .scalar (match settings.maxLength with
        | some limit => .number (Json.Number.ofInt limit.toNat)
        | none => .null)),
   (Json.unitsOf tracePostfixKey, .scalar (.bool settings.tracePostfix))]

/-- The compact JSON text of settings. -/
def compactJson (settings : Settings) : String := (Json.object settings.jsonMembers).compact

/-- The JSON text of settings with a line for each. -/
def prettyJson (settings : Settings) : String := Json.prettyObject settings.jsonMembers

end Settings
end InfixCalc
