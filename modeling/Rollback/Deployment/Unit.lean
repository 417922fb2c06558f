import Rollback.Files.Tree
import Rollback.Json.Decoding

/-!
# Deployment units

A deployment is a list of units, and a unit is a list of files with forward statements, all in the
order in which they are run.

- `DeploymentUnit.ofDirectory`: the files of SQL in a directory as a unit
- `DeploymentUnit.ofManifest`: the units that a manifest lists
-/

set_option autoImplicit false

namespace Rollback

/-- A file of forward statements. -/
structure DeploymentFile where
  name : String
  path : String
  /-- The text of the file, if it need not be read from the path. -/
  contents : Option String
deriving DecidableEq, Repr

/-- Files that are deployed together, in their order. -/
structure DeploymentUnit where
  name : String
  files : List DeploymentFile
deriving DecidableEq, Repr

open Json (Node Value)

namespace DeploymentFile

/-- The file at a path, named after it. -/
def ofPath (path : String) : DeploymentFile :=
  ⟨Path.fileName path, path, none⟩

/-- The text of a file. -/
def load (file : DeploymentFile) (t : FileTree) : Except Failure String :=
  match file.contents with
  | some text => .ok text
  | none => t.readSource file.path

/-- A file of a manifest, of which every field may be missing. -/
def ofNode? (node : Node) : Option DeploymentFile := do
  match ← node.record? [["name"], ["path"], ["contents"]] with
  | [name, path, contents] =>
    return {
      name := ← Node.orElse? "" Node.text? name
      path := ← Node.orElse? "" Node.text? path
      contents := ← Node.orElse? none (Node.nullable? Node.text?) contents }
  | _ => none

/-- A file as an object; contents that are absent are left out. -/
def toJson (file : DeploymentFile) : Value :=
  .object <|
    [("name", .string file.name), ("path", .string file.path)] ++
      (file.contents.map fun text => ("contents", Value.string text)).toList

end DeploymentFile

namespace DeploymentUnit

/-- A unit of a manifest, which must have a name; without files it is empty. -/
def ofNode? (node : Node) : Option DeploymentUnit := do
  match ← node.record? [["name"], ["files"]] with
  | [some name, files] =>
    return ⟨← name.text?, ← Node.orElse? [] (Node.list? DeploymentFile.ofNode?) files⟩
  | _ => none

/-- A unit as an object. -/
def toJson (u : DeploymentUnit) : Value :=
  .object [("name", .string u.name), ("files", .array (u.files.map DeploymentFile.toJson))]

/-- A unit of the given files. -/
def ofFiles (paths : List String) : DeploymentUnit :=
  ⟨"files", paths.map DeploymentFile.ofPath⟩

/-- A unit of the files of SQL in a directory, in the order of their names. -/
def ofDirectory (t : FileTree) (path : String) : Except Failure DeploymentUnit := do
  let names ← (t.fileNames path).mapError (.unreadable path)
  let names := (names.filter Path.isSqlName).mergeSort fun a b => decide (a ≤ b)
  let paths := names.map fun name => Path.join path name
  return ⟨Path.fileName path, (paths.filter t.hasFile).map .ofPath⟩

/-! ## Manifests -/

/-- A file of a manifest: its path starts from the manifest, and its name may come from its path. -/
def settleFile (base unit : String) (file : DeploymentFile) : Except Failure DeploymentFile :=
  if file.path.isEmpty && file.contents.isNone then
    .error (.fileWithoutSource file.name unit)
  else
    let path := if file.path.isEmpty then "" else Path.join base file.path
    .ok { file with path, name := if file.name.isEmpty then Path.fileName path else file.name }

/-- The files of a unit of a manifest, whose names differ from each other and from those before. -/
def settleFiles (base unit : String) (before : List String) :
    List DeploymentFile → Except Failure (List DeploymentFile)
  | [] => .ok []
  | file :: rest => do
    let file ← settleFile base unit file
    if before.contains file.name then .error (.repeatedFile file.name unit)
    else return file :: (← settleFiles base unit (file.name :: before) rest)

/-- The units of a manifest, each of which has a name; positions count from the given one. -/
def settleUnits (base : String) (position : Nat) :
    List DeploymentUnit → Except Failure (List DeploymentUnit)
  | [] => .ok []
  | u :: rest => do
    if (Text.trim u.name.toList).isEmpty then .error (.unnamedUnit position)
    else
      let files ← settleFiles base u.name [] u.files
      return ⟨u.name, files⟩ :: (← settleUnits base (position + 1) rest)

/-- The units that a manifest lists. -/
def ofManifest (t : FileTree) (path : String) : Except Failure (List DeploymentUnit) := do
  let text ← t.readSource path
  match (Node.parse? text).bind (Node.list? ofNode?) with
  | none => .error (.malformedManifest path)
  | some units => settleUnits (Path.parent path) 1 units

end DeploymentUnit

end Rollback
