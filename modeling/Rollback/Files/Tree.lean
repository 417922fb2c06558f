import Rollback.Failure
import Rollback.Files.Path

/-!
# File trees

The files and directories that a run can see, as a value. A tree holds an entry for every file and
directory below the root, and the place from which relative paths start.

- `FileTree.locate`: the place and the entry that a path leads to
- `FileTree.readText`, `FileTree.fileNames`, `FileTree.filesUnder`: what can be seen
- `FileTree.write`, `FileTree.makeDirectories`, `FileTree.remove`: changes
-/

set_option autoImplicit false

namespace Rollback

/-- What a file holds. -/
inductive Content where
  | text (s : String)
  /-- Bytes that are not UTF-8. -/
  | undecodable
deriving DecidableEq, Repr

/-- The content given by bytes. -/
def Content.ofBytes (bytes : ByteArray) : Content :=
  match String.fromUTF8? bytes with
  | some s => .text s
  | none => .undecodable

/-- A file or a directory. -/
inductive Entry where
  | file (content : Content)
  | directory
deriving DecidableEq, Repr

/-- Where an entry stands: the names on the way from the root to it. -/
abbrev Location := List String

/-- The files and directories that a run can see. -/
structure FileTree where
  /-- The entries below the root. -/
  entries : List (Location × Entry)
  /-- Where relative paths start. -/
  workingDirectory : Location

namespace FileTree

/-- The entry at a place. -/
def entry? (t : FileTree) (place : Location) : Option Entry :=
  if place.isEmpty then some .directory else t.entries.lookup place

/-- The tree with the entry at a place set. -/
def put (t : FileTree) (place : Location) (entry : Entry) : FileTree :=
  { t with
    entries :=
      if (t.entries.lookup place).isSome then
        t.entries.map fun e => if e.1 == place then (place, entry) else e
      else t.entries ++ [(place, entry)] }

/-- Makes sure that there is a directory at a place. -/
def requireDirectory (t : FileTree) (place : Location) : Except FileFault Unit :=
  match t.entry? place with
  | some .directory => .ok ()
  | some (.file _) => .error .notDirectory
  | none => .error .notFound

/-- Makes sure that a path can be looked up at all. -/
def requirePath (path : String) : Except FileFault Unit :=
  if path.toList.contains '\x00' then .error .nameWithNul
  else if path.isEmpty then .error .notFound
  else if Path.longestPath < path.utf8ByteSize then .error .nameTooLong
  else .ok ()

/-- Makes sure that a component of a path can be looked up in a directory. -/
def requireName (name : String) : Except FileFault Unit :=
  if Path.longestName < name.utf8ByteSize then .error .nameTooLong else .ok ()

/-- The place that some steps lead to; each step starts in a directory. -/
def walk (t : FileTree) (place : Location) : List String → Except FileFault Location
  | [] => .ok place
  | step :: rest => do
    t.requireDirectory place
    requireName step
    let next :=
      if step == "." then place else if step == ".." then place.dropLast else place ++ [step]
    walk t next rest

/-- The place where a path starts. -/
def start (t : FileTree) (path : String) : Location :=
  if Path.isAbsolute path then [] else t.workingDirectory

/-- The steps of a path; a slash at the end is a step that stays in a directory. -/
def steps (path : String) : List String :=
  (Text.pieces '/' path.toList).map fun name => if name.isEmpty then "." else String.ofList name

/-- The place and the entry that a path leads to. -/
def locate (t : FileTree) (path : String) : Except FileFault (Location × Entry) := do
  requirePath path
  let place ← t.walk (t.start path) (steps path)
  match t.entry? place with
  | some entry => return (place, entry)
  | none => .error .notFound

/-- Whether a path leads to anything. -/
def contains (t : FileTree) (path : String) : Bool :=
  match t.locate path with
  | .ok _ => true
  | .error _ => false

/-- Whether a path leads to a file. -/
def hasFile (t : FileTree) (path : String) : Bool :=
  match t.locate path with
  | .ok (_, .file _) => true
  | _ => false

/-- The text of the file that a path leads to. -/
def readText (t : FileTree) (path : String) : Except FileFault String := do
  match (← t.locate path).2 with
  | .file (.text s) => return s
  | .file .undecodable => .error .undecodable
  | .directory => .error .isDirectory

/-- The text of a source file. -/
def readSource (t : FileTree) (path : String) : Except Failure String :=
  (t.readText path).mapError (.unreadable path)

/-- The files below a place, by the names on the way from it. -/
def filesUnder (t : FileTree) (place : Location) : List Location :=
  t.entries.filterMap fun
    | (p, .file _) => if place.isPrefixOf p then some (p.drop place.length) else none
    | (_, .directory) => none

/-- The directories below a place, by the names on the way from it. -/
def directoriesUnder (t : FileTree) (place : Location) : List Location :=
  t.entries.filterMap fun
    | (p, .directory) => if place.isPrefixOf p then some (p.drop place.length) else none
    | (_, .file _) => none

/-- The place of the directory that a path leads to. -/
def directoryAt (t : FileTree) (path : String) : Except FileFault Location := do
  match ← t.locate path with
  | (place, .directory) => return place
  | (_, .file _) => .error .notDirectory

/-- The names of the files in the directory that a path leads to. -/
def fileNames (t : FileTree) (path : String) : Except FileFault (List String) := do
  return (t.filesUnder (← t.directoryAt path)).filterMap fun
    | [name] => some name
    | _ => none

/-- The tree with the file that a path leads to written; its directory must be there. -/
def write (t : FileTree) (path text : String) : Except FileFault FileTree := do
  requirePath path
  let way := steps (Path.withoutEndSlashes path)
  match way.getLast? with
  | none => .error .notFound
  | some last =>
    let directory ← t.walk (t.start path) way.dropLast
    t.requireDirectory directory
    -- Such a path can lead to a directory only, whether or not there is anything.
    if path.toList.getLast? == some '/' || last == "." || last == ".." then .error .isDirectory
    else
      requireName last
      let place := directory ++ [last]
      match t.entry? place with
      | some .directory => .error .isDirectory
      | _ => return t.put place (.file (.text text))

/-- The tree with one more directory, in one that is there. -/
def makeDirectory (t : FileTree) (base : Location) (names : List String) (name : String) :
    Except FileFault FileTree := do
  let parent ← t.walk base names
  t.requireDirectory parent
  requireName name
  let place := parent ++ [name]
  -- Two dots lead to a directory that is there already.
  if name == ".." || (t.entry? place).isSome then .error .alreadyExists
  else return t.put place .directory

/-- Whether some names lead to a directory. -/
def leadsToDirectory (t : FileTree) (base : Location) (names : List String) : Bool :=
  match t.walk base names with
  | .ok place => t.entry? place == some .directory
  | .error _ => false

/--
The tree with the directories on a way, given by its names in reverse. Those before the last are
made only if the last cannot be made without them.
-/
def makeDirectoriesFrom (t : FileTree) (base : Location) :
    List String → Except FileFault Unit × FileTree
  | [] => (.ok (), t)
  | name :: before =>
    let attempt (t : FileTree) (retry : FileTree → Except FileFault Unit × FileTree) :
        Except FileFault Unit × FileTree :=
      match t.makeDirectory base before.reverse name with
      | .ok t => (.ok (), t)
      | .error fault =>
        if fault == .notFound then retry t
        else if t.leadsToDirectory base (name :: before).reverse then (.ok (), t)
        else (.error fault, t)
    -- A second attempt follows once the directories before this one are made.
    attempt t fun t =>
      match makeDirectoriesFrom t base before with
      | (.ok (), t) => attempt t fun t => (.error .notFound, t)
      | (.error fault, t) => (.error fault, t)

/-- The tree with the directories on the way that a path describes; there are none on an empty
path. -/
def makeDirectories (t : FileTree) (path : String) : Except FileFault Unit × FileTree :=
  if path.isEmpty then (.ok (), t)
  else
    match requirePath path with
    | .ok () => t.makeDirectoriesFrom (t.start path) (Path.components path).reverse
    | .error fault => (.error fault, t)

/-- The tree without what a path leads to and without what is below it. -/
def remove (t : FileTree) (path : String) : Except FileFault FileTree := do
  let (place, _) ← t.locate path
  return { t with entries := t.entries.filter fun e => !place.isPrefixOf e.1 }

/-- The paths of all files from the working directory on, in ascending order. -/
def paths (t : FileTree) : List String :=
  ((t.filesUnder t.workingDirectory).map (Text.join "/")).mergeSort fun a b => decide (a ≤ b)

end FileTree

/-- Work that may change files, and may fail after it has changed some. -/
abbrev FileWork := ExceptT Failure (StateM FileTree)

namespace FileWork

/-- A change of files that is made at once. -/
def change (step : FileTree → Except FileFault FileTree) : FileWork Unit := fun t =>
  match step t with
  | .ok t => (.ok (), t)
  | .error fault => (.error (.unwritable fault), t)

/-- Makes the directories on the way that a path describes. -/
def makeDirectories (path : String) : FileWork Unit := fun t =>
  let (result, t) := t.makeDirectories path
  (result.mapError .unwritable, t)

/-- Writes a file into a directory that is there. -/
def write (path text : String) : FileWork Unit :=
  change fun t => t.write path text

/-- Writes a file and makes the directories on the way to it. -/
def writeWithParents (path text : String) : FileWork Unit := do
  makeDirectories (Path.parent path)
  write path text

/-- The result of reading from the files as they are. -/
def look {α : Type} (read : FileTree → Except Failure α) : FileWork α := fun t => (read t, t)

end FileWork

end Rollback
