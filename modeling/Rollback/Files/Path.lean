import Rollback.Text.Casing
import Rollback.Text.Pieces

/-!
# Paths

Paths as texts. Slashes separate the components of a path; several slashes count as one, and a
component that is a single dot means nothing except at the start.

- `Path.longestPath`, `Path.longestName`: how long paths and their components can be
- `Path.components`: the components that mean something
- `Path.fileName`: the name of what a path leads to
- `Path.parent`: the path without its last component
- `Path.join`: a path taken from the place that another one leads to
-/

set_option autoImplicit false

namespace Rollback.Path

/-- Whether a path starts at the root. -/
def isAbsolute (path : String) : Bool :=
  path.toList.head? == some '/'

/-- The largest number of bytes in a path. -/
def longestPath : Nat := 4095

/-- The largest number of bytes in a component. -/
def longestName : Nat := 255

/-- A path without the slashes at its end. -/
def withoutEndSlashes (path : String) : String :=
  String.ofList (path.toList.reverse.dropWhile (· == '/')).reverse

/-- The components of a path that are neither empty nor a single dot. -/
def components (path : String) : List String :=
  ((Text.pieces '/' path.toList).map String.ofList).filter fun name =>
    !name.isEmpty && name != "."

/-- The name at the end of a path, or the whole path if it does not end in a name. -/
def fileName (path : String) : String :=
  match (components path).getLast? with
  | some name => if name == ".." then path else name
  | none => path

/-- A reversed path without slashes and single dots that mean nothing after its last component. -/
def dropTrailing : List Char → List Char
  | '/' :: [] => ['/']
  | '/' :: rest => dropTrailing rest
  | '.' :: '/' :: rest => dropTrailing ('/' :: rest)
  | s => s

/-- The path without its last component; empty if there is no other. -/
def parent (path : String) : String :=
  match dropTrailing path.toList.reverse with
  | ['/'] => ""
  | s => String.ofList (dropTrailing (s.dropWhile (· != '/'))).reverse

/-- A path taken from the place that another one leads to; an absolute path stands for itself. -/
def join (base path : String) : String :=
  if isAbsolute path || base.isEmpty then path
  else if base.toList.getLast? == some '/' then base ++ path
  else base ++ "/" ++ path

/-- Whether the last component of a path names a file of SQL, in any letter case. -/
def isSqlName (name : String) : Bool :=
  name.lowerCase.endsWith ".sql"

/-- Whether one list of components stands before another. -/
def comesBefore (a b : List String) : Bool :=
  !decide (b < a)

end Rollback.Path
