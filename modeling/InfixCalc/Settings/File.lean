/-
# Settings in a file

Settings are loaded from a JSON file.  Loading never fails: when there is no file, or none that
can be used, the default settings are taken and the reason is logged as a warning.  Saving
writes the pretty JSON text.
-/

import InfixCalc.FileTree
import InfixCalc.Settings.Json
import InfixCalc.Text.Quoted

namespace InfixCalc

/-- What happens when settings are loaded. -/
inductive LoadEvent where
  | missing (path : Path)
  | loaded (path : Path)
  | unusable (path : Path) (cause : SettingsError)
  | unreadable (path : Path) (cause : FileError)
  deriving DecidableEq, Repr

/-- The log entry of an event. -/
def LoadEvent.entry : LoadEvent → LogEntry
  | missing path => ⟨.warn, "配置文件不存在，使用默认配置", [("path", Text.quoted path)]⟩
  | loaded path => ⟨.info, "配置文件加载成功", [("path", Text.quoted path)]⟩
  | unusable path cause =>
    ⟨.warn, "配置文件解析失败，使用默认配置",
      [("path", Text.quoted path), ("error", cause.message)]⟩
  | unreadable path cause =>
    ⟨.warn, "配置文件读取失败，使用默认配置",
      [("path", Text.quoted path), ("error", cause.message)]⟩

namespace Settings

/-- The settings in the file at a path, whose text is given or cannot be read. -/
def ofFile (path : Path) : Except FileError String → Logged LoadEvent Settings
  | .error cause =>
    if cause.leadsNowhere then ⟨{}, [.missing path]⟩ else ⟨{}, [.unreadable path cause]⟩
  | .ok text =>
    match ofJsonText text with
    | .ok settings => ⟨settings, [.loaded path]⟩
    | .error cause => ⟨{}, [.unusable path cause]⟩

/-- Loads settings from the file at a path. -/
def load (tree : FileTree) (path : Path) : Logged LoadEvent Settings :=
  ofFile path (tree.readText path)

/-- Saves settings to the file at a path; the directory must exist. -/
def save (settings : Settings) (tree : FileTree) (path : Path) :
    Except SettingsError FileTree :=
  match tree.write path settings.prettyJson.toUTF8 with
  | .ok tree => .ok tree
  | .error e => .error (.file e.message)

end Settings
end InfixCalc
