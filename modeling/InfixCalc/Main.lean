/-
# The command line

`expr-check [-v | --verbose] [-c FILE | --config FILE] [PATH]` checks the corpus files at or
below a path.  What is on the disk is read into a file tree; the rest is `CheckCommand`.  Paths come
from the command line and names from the disk as texts, and stand for their bytes.
-/

import InfixCalc.Corpus.Command

namespace InfixCalc
namespace CommandLine

/-- What the command line asks for. -/
structure Arguments where
  path : Option String := none
  settingsPath : Option String := none
  deriving DecidableEq, Repr

/-- Reads the arguments after the name of the command.  Being verbose adds log lines only, and
there are none. -/
def readArguments? (arguments : Arguments) : List String → Option Arguments
  | [] => some arguments
  | "-v" :: rest | "--verbose" :: rest => readArguments? arguments rest
  | "-c" :: path :: rest | "--config" :: path :: rest =>
    match arguments.settingsPath with
    | none => readArguments? { arguments with settingsPath := some path } rest
    | some _ => none
  | path :: rest =>
    match arguments.path with
    | none =>
      if path.toList.head? == some '-' then none
      else readArguments? { arguments with path := some path } rest
    | some _ => none

/-- The arguments of the one command there is. -/
def command? : List String → Option Arguments
  | "-v" :: rest | "--verbose" :: rest => command? rest
  | "expr-check" :: rest => readArguments? {} rest
  | _ => none

/-- How the command is used. -/
def usage : String := "expr-check [-v | --verbose] [-c FILE | --config FILE] [PATH]\n"

/-- A place on the disk. -/
def placeOf (path : String) : IO.FS.DirEntry := { root := path, fileName := "" }

/-- Reads the text of a file on the disk. -/
def readText (path : String) : IO (Except FileError String) := do
  let place := (placeOf path).root
  if !(← place.pathExists) then return .error .notFound
  if ← place.isDir then return .error .isADirectory
  return decodeUtf8 (← IO.FS.readBinFile path)

/-- Reads the files below a place on the disk; only the bytes of corpus files matter. -/
partial def readTree (path : String) (name : FileName) : IO FileTree := do
  let place := (placeOf path).root
  if ← place.isDir then
    let mut entries := []
    for entry in ← place.readDir do
      let name := Path.ofText entry.fileName
      let below := path ++ "/" ++ entry.fileName
      match (← (placeOf below).root.symlinkMetadata).type with
      | .dir | .file => entries := (name, ← readTree below name) :: entries
      | _ => pure ()
    return .directory entries
  else if CheckCommand.isCorpusName name then return .file (← IO.FS.readBinFile path)
  else return .file .empty

/-- Runs the command on the disk. -/
def run (arguments : Arguments) : IO CommandOutcome := do
  let settings ← match arguments.settingsPath with
    | some path => do pure (Settings.ofFile path (← readText path)).value
    | none => pure {}
  let (path, missing) := CheckCommand.target (arguments.path.map Path.ofText)
  if ← (placeOf path.text).root.pathExists then
    let tree ← readTree path.text (CheckCommand.lastName path [])
    return CheckCommand.runOn settings path tree
  else return CheckCommand.failure "" missing

end CommandLine
end InfixCalc

open InfixCalc in
/-- Runs the command, writes what it leaves on the error stream and gives its exit code. -/
def main (arguments : List String) : IO UInt32 := do
  match CommandLine.command? arguments with
  | none =>
    IO.eprint CommandLine.usage
    return 2
  | some arguments =>
    let outcome ← CommandLine.run arguments
    IO.eprint outcome.stderr
    return outcome.exitCode
