import Rollback.Files.Tree

/-!
# Discovery of sources

The files of SQL in a repository, apart from those in directories that are to be skipped.

- `discover`: the sources below a directory, in the order of their paths
-/

set_option autoImplicit false

namespace Rollback

/-- A file of SQL in a repository. -/
structure SourceFile where
  /-- The path that leads to the file. -/
  path : String
  /-- The path from the root of the repository. -/
  key : String
deriving DecidableEq, Repr

/-- Whether none of the directories on a way is to be skipped. -/
def isVisited (skipped : List String) (directories : List String) : Bool :=
  directories.all fun name => !(skipped.map String.lowerCase).contains name.lowerCase

/-- Whether a file, given by the names on the way to it, is a source. -/
def isSource (skipped : List String) (names : List String) : Bool :=
  names.getLast?.any Path.isSqlName && isVisited skipped names.dropLast

/-- The path that leads from a root along some names. -/
def pathAlong (root : String) (names : List String) : String :=
  names.foldl Path.join root

/-- The source that is reached from a root by some names. -/
def SourceFile.ofNames (root : String) (names : List String) : SourceFile :=
  ⟨pathAlong root names, Text.join "/" names⟩

/-- The first directory below a place that is visited and cannot be opened, as its path is too long
to be looked up. -/
def unopened? (t : FileTree) (root : String) (place : Location) (skipped : List String) :
    Option String :=
  let visited := (t.directoriesUnder place).filter (isVisited skipped)
  (visited.map (pathAlong root)).find? fun path => Path.longestPath < path.utf8ByteSize

/-- The sources below a directory, in the order of their paths. All directories that are not skipped
are opened, also those without sources. -/
def discover (t : FileTree) (root : String) (skipped : List String) :
    Except Failure (List SourceFile) := do
  let place ← (t.directoryAt root).mapError (.unreadable root)
  match unopened? t root place skipped with
  | some path => .error (.unreadable path .nameTooLong)
  | none =>
    let sources := ((t.filesUnder place).filter (isSource skipped)).mergeSort Path.comesBefore
    return sources.map (SourceFile.ofNames root)

end Rollback
