import Rollback.CommandLine.Run
import Std.Time.DateTime.Timestamp

/-!
# The program

The outermost layer: it reads the files that a run can see, runs, and puts out the results and
changes of files.
-/

set_option autoImplicit false

namespace Rollback.Program

/-- Variables of the environment that give settings. -/
def variableNames : List String :=
  ["REWIND_CATALOG", "REWIND_SKIP_DIRS", "REWIND_ROLLBACK_PREFIX", "REWIND_ANNOTATE"]

/-- The variables that are set. -/
def environment : IO (List (String × String)) :=
  variableNames.filterMapM fun name => do return (← IO.getEnv name).map fun value => (name, value)

/-- The present time. -/
def now : IO Instant := do
  let nanoseconds := (← Std.Time.Timestamp.now).toNanosecondsSinceUnixEpoch.val
  return ⟨nanoseconds.fdiv 1000000000, (nanoseconds.fmod 1000000000).toNat⟩

/-- The path of a place. -/
def pathOf (place : Location) : String :=
  "/" ++ Text.join "/" place

/-- The entries at a place and below it. A link to a file counts as a file. -/
partial def readEntries (place : Location) : IO (List (Location × Entry)) := do
  let path := (← IO.currentDir) / pathOf place
  match (← path.symlinkMetadata).type with
  | .dir =>
    let children ← (← path.readDir).toList.mapM fun child =>
      readEntries (place ++ [child.fileName])
    return (place, .directory) :: children.flatten
  | _ =>
    if (← path.isDir) || !(← path.pathExists) then return []
    else return [(place, .file (.ofBytes (← IO.FS.readBinFile path)))]

/-- The entries at a place, if they can be read. -/
def readEntries? (place : Location) : IO (List (Location × Entry)) := do
  try readEntries place catch _ => return []

/-- The directories above a place. -/
def directoriesAbove (place : Location) : List (Location × Entry) :=
  (List.range place.length).filterMap fun n =>
    if n == 0 then none else some (place.take n, .directory)

/-- The places outside the working directory that words lead to. -/
def outsidePlaces (t : FileTree) (words : List String) : List Location :=
  words.filterMap fun word =>
    let start := if Path.isAbsolute word then [] else t.workingDirectory
    let place := (Path.components word).foldl (fun place name =>
      if name == ".." then place.dropLast else place ++ [name]) start
    if t.workingDirectory.isPrefixOf place then none else some place

/-- The tree with the entries of some places. -/
def withEntries (t : FileTree) (entries : List (Location × Entry)) : FileTree :=
  entries.foldl (fun t e => t.put e.1 e.2) t

/-- The files in the working directory and those that words lead to. -/
def readFiles (words : List String) : IO FileTree := do
  let workingDirectory := Path.components (← IO.currentDir).toString
  let inside ← readEntries? workingDirectory
  let t : FileTree := ⟨directoriesAbove workingDirectory ++ inside, workingDirectory⟩
  let outside ← (outsidePlaces t words).mapM fun place => do
    return directoriesAbove place ++ (← readEntries? place)
  return withEntries t outside.flatten

/-- Makes the changes of files that a run asks for. -/
def writeChanges (before after : FileTree) : IO Unit :=
  after.entries.forM fun (place, entry) => do
    if before.entry? place != some entry then
      match entry with
      | .directory => IO.FS.createDirAll (pathOf place)
      | .file (.text text) => IO.FS.writeFile (pathOf place) text
      | .file .undecodable => pure ()

end Rollback.Program

open Rollback Program in
/-- Runs the program. -/
def main (words : List String) : IO UInt32 := do
  let files ← readFiles words
  let result := CommandLine.run words (← environment) (some (← now)) files
  (← IO.getStdout).putStr result.stdout
  (← IO.getStderr).putStr result.stderr
  writeChanges files result.files
  return UInt32.ofNat result.status
