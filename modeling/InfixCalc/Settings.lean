/-
# Settings and log entries

A calculator has two settings: how many characters an expression may have, and whether the
postfix sequence is logged.  By default there is no limit and nothing is logged.  Settings are
valid unless the limit is zero; only settings that are read from JSON are held to that.

What happens while a calculator works, or while its settings are loaded, is recorded as a list of
events beside the result.  Each kind of event is written as an entry: a level, a message, and named
values in a fixed order.
-/

namespace InfixCalc

/-- The settings of a calculator. -/
structure Settings where
  /-- How many characters an expression may have; no limit, if absent. -/
  maxLength : Option UInt64 := none
  /-- Whether the postfix sequence is logged. -/
  tracePostfix : Bool := false
  deriving DecidableEq, Repr, Inhabited

/-- Why settings cannot be read, kept or used. -/
inductive SettingsError where
  /-- The text is no JSON text of settings. -/
  | serialization (reason : String)
  /-- The file system refuses. -/
  | file (reason : String)
  /-- The settings are not valid. -/
  | validation (reason : String)
  deriving DecidableEq, Repr

/-- The wording of a settings error. -/
def SettingsError.message : SettingsError → String
  | serialization reason => "配置序列化失败: " ++ reason
  | file reason => "配置 IO 错误: " ++ reason
  | validation reason => "配置验证失败: " ++ reason

namespace Settings

/-- The limit that an expression of this length exceeds, if it exceeds one. -/
def exceeded? (settings : Settings) (length : Nat) : Option UInt64 :=
  settings.maxLength.filter fun limit => limit.toNat < length

/-- A limit of zero would refuse every expression and is not valid. -/
def validate (settings : Settings) : Except SettingsError Unit :=
  if settings.maxLength = some 0 then .error (.validation "max_input_len 必须大于 0")
  else .ok ()

end Settings

/-- The level of a log entry. -/
inductive LogLevel where
  | trace
  | debug
  | info
  | warn
  deriving DecidableEq, Repr

/-- The name of a level. -/
def LogLevel.name : LogLevel → String
  | trace => "TRACE"
  | debug => "DEBUG"
  | info => "INFO"
  | warn => "WARN"

/-- A log entry. -/
structure LogEntry where
  level : LogLevel
  message : String
  /-- Names and values, in the order in which they are written. -/
  fields : List (String × String)
  deriving DecidableEq, Repr

/-- A value and the events on the way to it, in order. -/
structure Logged (Event Value : Type) where
  value : Value
  events : List Event

end InfixCalc
