/-
# Paths

A path is a sequence of bytes: its components are the names between the slashes.  Nothing says that
names are text.  A text stands for the path that is its UTF-8 form, and where a path is shown, it is
read as UTF-8 again; so a path that is given as a text is shown as it was given
(`Path.text_ofText`).

There are limits.  A path that is empty, is too long or has a null byte in it leads nowhere, and no
entry of a directory has a name that is too long.
-/

import InfixCalc.Text.Utf8

namespace InfixCalc

/-- The name of an entry of a directory, as bytes. -/
abbrev FileName := List UInt8

/-- A path, as bytes. -/
abbrev Path := List UInt8

namespace Path

/-- The path that is written as a text. -/
def ofText (text : String) : Path := Utf8.bytes text

instance : Coe String Path := ⟨ofText⟩

/-- How a path is shown. -/
def text (path : Path) : String := Utf8.lossy path

/-- **A path that is written as a text** is shown as this text. -/
theorem text_ofText (shown : String) : text (ofText shown) = shown := Utf8.lossy_bytes shown

/-- The byte that divides a path. -/
def slash : UInt8 := 0x2F

/-- The component that stays in a directory. -/
def here : FileName := "."

/-- The component that leads to the directory above. -/
def above : FileName := ".."

/-- The components of a path. -/
def components (path : Path) : List FileName := path.splitOn slash

/-- How many bytes a path may have. -/
def maxBytes : Nat := 4095

/-- How many bytes a name may have. -/
def maxNameBytes : Nat := 255

/-- The path is too long to be followed. -/
def isTooLong (path : Path) : Bool := maxBytes < path.length

/-- The name of the working directory in the root. -/
def workingName : FileName := []

/-- Where a path is followed from. -/
def origin (path : Path) : List FileName := if path.head? == some slash then [] else [workingName]

/-- The component stays in the same directory. -/
def stays (component : FileName) : Bool := component.isEmpty || component == here

/-- The path of an entry of a directory. -/
def join (path : Path) (name : FileName) : Path :=
  if path.isEmpty || path.getLast? == some slash then path ++ name else path ++ slash :: name

end Path
end InfixCalc
