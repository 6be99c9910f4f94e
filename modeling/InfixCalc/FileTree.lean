/-
# File trees

A file tree is a file or a directory; a directory has named entries in no particular order.
A path is followed from the working directory, or from the root if it starts with a slash: `..`
goes to the directory above, and a component that is empty or `.` stays where it is.  A component
can only follow a directory.

The working directory lies in the root.  What it is called there is not known, so it has the
empty name, which no component can ask for: a path that leaves it cannot come back.

`FileTree.places` lists a tree and all below it depth first, the entries of each directory in
the order of their names, and `FileTree.files` the files among them.
-/

import InfixCalc.Path

namespace InfixCalc

/-- A file, or a directory with its entries. -/
inductive FileTree where
  | file (bytes : ByteArray)
  | directory (entries : List (FileName × FileTree))
  deriving Inhabited

/-- Why a file cannot be read or written. -/
inductive FileError where
  | notFound
  | notADirectory
  | isADirectory
  | tooLong
  | nullCharacter
  | notUtf8
  deriving DecidableEq, Repr

/-- The wording of a file error. -/
def FileError.message : FileError → String
  | notFound => "No such file or directory (os error 2)"
  | notADirectory => "Not a directory (os error 20)"
  | isADirectory => "Is a directory (os error 21)"
  | tooLong => "File name too long (os error 36)"
  | nullCharacter => "file name contained an unexpected NUL byte"
  | notUtf8 => "stream did not contain valid UTF-8"

/-- The error means that there is nothing at a path, rather than nothing that can be used. -/
def FileError.leadsNowhere : FileError → Bool
  | notFound | notADirectory | tooLong | nullCharacter => true
  | isADirectory | notUtf8 => false

/-- The text that bytes are the UTF-8 form of. -/
def decodeUtf8 (bytes : ByteArray) : Except FileError String :=
  match String.fromUTF8? bytes with
  | some text => .ok text
  | none => .error .notUtf8

/-- What is wrong with a path that cannot be followed whatever the tree is. -/
def Path.fault? (path : Path) : Option FileError :=
  if path.contains 0 then some .nullCharacter
  else if isTooLong path then some .tooLong
  else if path.isEmpty then some .notFound
  else none

namespace FileTree

/-- A working directory with nothing in it, and nothing beside it. -/
def empty : FileTree := directory [(Path.workingName, directory [])]

/-- The entry of a directory with this name. -/
def child? (name : FileName) : FileTree → Option FileTree
  | file _ => none
  | directory entries => (entries.find? fun entry => entry.1 == name).map Prod.snd

/-- The subtree at a location: the names from the top down to it. -/
def at? (tree : FileTree) : List FileName → Option FileTree
  | [] => some tree
  | name :: names =>
    match tree.child? name with
    | some child => child.at? names
    | none => none

/-- Replaces the subtree with this name by what `change` makes of it, or of nothing. -/
def putEntry (name : FileName) (change : Option FileTree → FileTree)
    (entries : List (FileName × FileTree)) : List (FileName × FileTree) :=
  if entries.any fun entry => entry.1 == name then
    entries.map fun entry => if entry.1 == name then (name, change (some entry.2)) else entry
  else entries ++ [(name, change none)]

/-- Puts a subtree at a location.  Directories on the way are made where there is nothing; a
file on the way stays, and then nothing is put. -/
def put : FileTree → List FileName → FileTree → FileTree
  | _, [], new => new
  | file bytes, _ :: _, _ => file bytes
  | directory entries, name :: names, new =>
    directory (putEntry name (fun child => (child.getD (directory [])).put names new) entries)

/-- Follows components from a location, whose names are given nearest first. -/
def follow (tree : FileTree) (location : List FileName) :
    List FileName → Except FileError (List FileName)
  | [] => .ok location
  | component :: components =>
    match tree.at? location.reverse with
    | none => .error .notFound
    | some (file _) => .error .notADirectory
    | some (directory entries) =>
      if Path.stays component then tree.follow location components
      else if component == Path.above then tree.follow location.tail components
      else if ((directory entries).child? component).isSome then
        tree.follow (component :: location) components
      else if Path.maxNameBytes < component.length then .error .tooLong
      else .error .notFound

/-- The location that a path leads to. -/
def locate (tree : FileTree) (path : Path) : Except FileError (List FileName) :=
  match Path.fault? path with
  | some e => .error e
  | none => (tree.follow (Path.origin path) (Path.components path)).map List.reverse

/-- What a path leads to. -/
def lookup (tree : FileTree) (path : Path) : Except FileError FileTree :=
  match tree.locate path with
  | .error e => .error e
  | .ok location =>
    match tree.at? location with
    | some found => .ok found
    | none => .error .notFound

/-- The bytes of a file. -/
def bytes : FileTree → Except FileError ByteArray
  | file bytes => .ok bytes
  | directory _ => .error .isADirectory

/-- The text of the file that a path leads to. -/
def readText (tree : FileTree) (path : Path) : Except FileError String :=
  match tree.lookup path with
  | .error e => .error e
  | .ok found =>
    match found.bytes with
    | .error e => .error e
    | .ok bytes => decodeUtf8 bytes

/-- The location where a path lets a file be written: the directory of its last component
exists, and there is no directory of that name. -/
def placeFor (tree : FileTree) (path : Path) : Except FileError (List FileName) :=
  match Path.fault? path with
  | some e => .error e
  | none =>
    let reversed := (Path.components path).reverse
    let trimmed := reversed.dropWhile List.isEmpty
    let parent := trimmed.tail.reverse
    match tree.follow (Path.origin path) (parent ++ [Path.here]) with
    | .error e => .error e
    | .ok location =>
      let name := trimmed.headD []
      if reversed.head? == some [] || Path.stays name || name == Path.above then
        .error .isADirectory
      else if Path.maxNameBytes < name.length then .error .tooLong
      else
        match tree.at? (name :: location).reverse with
        | some (directory _) => .error .isADirectory
        | _ => .ok (name :: location).reverse

/-- Writes a file where its path lets it be written. -/
def write (tree : FileTree) (path : Path) (bytes : ByteArray) : Except FileError FileTree :=
  (tree.placeFor path).map fun location => tree.put location (file bytes)

/-- Makes the directories that components lead through from a location, whose names are given
nearest first; gives the tree and the location they lead to. -/
def makeDirectories (tree : FileTree) (location : List FileName) :
    List FileName → FileTree × List FileName
  | [] => (tree, location)
  | component :: components =>
    if Path.stays component then tree.makeDirectories location components
    else if component == Path.above then tree.makeDirectories location.tail components
    else
      let location := component :: location
      match tree.at? location.reverse with
      | some _ => tree.makeDirectories location components
      | none => (tree.put location.reverse (directory [])).makeDirectories location components

/-- Makes the directory at a path, and those it lies in. -/
def makeDirectory (tree : FileTree) (path : Path) : FileTree :=
  match Path.fault? path with
  | some _ => tree
  | none => (tree.makeDirectories (Path.origin path) (Path.components path)).1

/-- Makes the directories in which a path lies, and then writes a file where the path lets it be
written. -/
def create (tree : FileTree) (path : Path) (bytes : ByteArray) : FileTree :=
  match Path.fault? path with
  | some _ => tree
  | none =>
    let tree := (tree.makeDirectories (Path.origin path) (Path.components path).dropLast).1
    match tree.write path bytes with
    | .ok tree => tree
    | .error _ => tree

/-- Sorts entries by their names, byte by byte. -/
def sortByName {α : Type} (entries : List (FileName × α)) : List (FileName × α) :=
  entries.mergeSort fun a b => decide (a.1 ≤ b.1)

/-- The tree itself and all below it with the names that lead there: depth first, the entries
of each directory in order. -/
def places : FileTree → List (List FileName × FileTree)
  | file bytes => [([], file bytes)]
  | directory entries =>
    ([], directory entries) ::
      (sortByName (entries.map fun entry => (entry.1, places entry.2))).flatMap
        fun (name, below) => below.map fun (names, place) => (name :: names, place)
termination_by tree => sizeOf tree
decreasing_by
  rename_i h
  have h₁ := List.sizeOf_lt_of_mem h
  have h₂ : sizeOf entry.2 < sizeOf entry := by
    cases entry
    simp only [Prod.mk.sizeOf_spec]
    omega
  simp only [directory.sizeOf_spec]
  omega

/-- The files at and below a tree with the names that lead to them. -/
def files (tree : FileTree) : List (List FileName × ByteArray) :=
  tree.places.filterMap fun
    | (names, file bytes) => some (names, bytes)
    | (_, directory _) => none

/-- The names that lead to the directories at and below a tree. -/
def directories (tree : FileTree) : List (List FileName) :=
  tree.places.filterMap fun
    | (_, file _) => none
    | (names, directory _) => some names

end FileTree
end InfixCalc
