/-
# The command that checks corpora

The command checks every `.expr` file at or below a path, or below the default directory if no
path is given, and writes a report.  Its exit code is zero unless the path leads nowhere, a
path below it gets too long, a file is not UTF-8 text, or some diagnostic is an error.
-/

import InfixCalc.Corpus.Check
import InfixCalc.Settings.File

namespace InfixCalc

/-- Why the command fails. -/
inductive CommandError where
  | pathNotFound (path : Path)
  | defaultNotFound (path : Path)
  | unopened (path : Path) (cause : FileError)
  | unreadable (cause : FileError)
  | corpusErrors
  deriving DecidableEq, Repr

/-- The wording of a failure. -/
def CommandError.message : CommandError → String
  | pathNotFound path => "路径不存在: " ++ path.text
  | defaultNotFound path =>
    "默认用例集目录不存在: " ++ path.text ++ "\n请在 workspace 根目录运行，或指定用例集路径"
  | unopened path cause =>
    "IO error for operation on " ++ path.text ++ ": " ++ cause.message ++ ": " ++ cause.message
  | unreadable cause => cause.message
  | corpusErrors => "用例集检查发现错误"

/-- What a run of the command leaves: an exit code and the text on the error stream. -/
structure CommandOutcome where
  exitCode : UInt32
  stderr : String
  deriving DecidableEq, Repr

namespace CheckCommand

/-- Where corpora are looked for if no path is given. -/
def defaultPath : Path := "rpn-calc/tests/corpus"

/-- The extension of the names of corpus files. -/
def extension : FileName := ".expr"

/-- The file name has the extension; a name cannot be an extension only. -/
def isCorpusName (name : FileName) : Bool :=
  extension.isSuffixOf name && extension.length < name.length

/-- The last name of the path to a file: that of the path itself if nothing leads below it. -/
def lastName (path : Path) (below : List FileName) : FileName :=
  match below.getLast? with
  | some name => name
  | none => (Path.components path).getLastD []

/-- The corpus files at or below a tree, with the names that lead to them. -/
def corpusFiles (path : Path) (tree : FileTree) : List (List FileName × ByteArray) :=
  tree.files.filter fun file => isCorpusName (lastName path file.1)

/-- The path that leads through these names from the place at a path. -/
def pathTo (path : Path) : List FileName → Path
  | [] => path
  | below => Path.join path ([Path.slash].intercalate below)

/-- The first directory at or below a path that cannot be searched, since its own path is too
long. -/
def unopened? (path : Path) (tree : FileTree) : Option Path :=
  (tree.directories.map (pathTo path)).find? Path.isTooLong

/-- The text of a corpus file at a path. -/
def readText (path : Path) (bytes : ByteArray) : Except FileError String :=
  if Path.isTooLong path then .error .tooLong else decodeUtf8 bytes

/-- The report of further corpus files, after a report so far. -/
def reportAfter (calculator : Calculator) (path : Path) (report : Report) :
    List (List FileName × ByteArray) → Except FileError Report
  | [] => .ok report
  | (below, bytes) :: rest =>
    let source := pathTo path below
    match readText source bytes with
    | .error e => .error e
    | .ok text =>
      let next := (Corpus.check calculator source.text text).value
      reportAfter calculator path (report.merge next) rest

/-- The line above a report. -/
def rule : String := String.ofList (List.replicate 53 '─')

/-- What is written for a report. -/
def reportText (report : Report) : String :=
  let errors := Diagnostic.count .error report.diagnostics
  rule ++ "\n" ++
    s!"检查完成: {report.checked} 个用例，{report.passed} 个通过\n\n" ++
    String.join (report.diagnostics.map fun diagnostic => diagnostic.text ++ "\n") ++ "\n" ++
    (if 0 < errors then s!"❌ {errors} 个错误\n" else "✅ 检查通过，无错误\n")

/-- The outcome of a run that writes a text and then fails. -/
def failure (written : String) (cause : CommandError) : CommandOutcome :=
  ⟨1, written ++ "xtask error: " ++ cause.message ++ "\n"⟩

/-- Checks the corpus files of a tree that a path leads to. -/
def runOn (settings : Settings) (path : Path) (tree : FileTree) : CommandOutcome :=
  match unopened? path tree, corpusFiles path tree with
  | some place, _ => failure "" (.unopened place .tooLong)
  | none, [] => ⟨0, "未找到用例集文件（.expr）\n"⟩
  | none, files =>
    match reportAfter ⟨settings⟩ path {} files with
    | .error cause => failure "" (.unreadable cause)
    | .ok report =>
      if Diagnostic.hasErrors report.diagnostics then failure (reportText report) .corpusErrors
      else ⟨0, reportText report⟩

/-- The path that is checked, and what is wrong if it leads nowhere. -/
def target : Option Path → Path × CommandError
  | some path => (path, .pathNotFound path)
  | none => (defaultPath, .defaultNotFound defaultPath)

/-- Runs the command in a file tree. -/
def run (tree : FileTree) (path settingsPath : Option Path) : CommandOutcome :=
  let settings :=
    match settingsPath with
    | some settingsPath => (Settings.load tree settingsPath).value
    | none => {}
  match tree.lookup (target path).1 with
  | .ok found => runOn settings (target path).1 found
  | .error _ => failure "" (target path).2

end CheckCommand
end InfixCalc
