import Rollback.Deployment.Batch

/-!
# Output of rollbacks

Writing rollbacks to files: all in one, or one for each forward file.

- `BatchRollback.writeScript`: one file
- `BatchRollback.writeFiles`: a file for each forward file, in a directory for each unit
-/

set_option autoImplicit false

namespace Rollback

namespace BatchRollback

/-- Writes the rollback of the whole deployment to one file. -/
def writeScript (b : BatchRollback) (path : String) : FileWork Unit :=
  FileWork.writeWithParents path b.script

/-- The directory and the path of the rollback of a file. -/
def target (directory : String) (f : FileRollback) : String × String :=
  let unit := Path.join directory (sanitizeComponent f.unitName namelessUnit)
  (unit, Path.join unit (sanitizeComponent f.rollbackName namelessRollback))

/-- The first path that occurs among the ones before it. -/
def firstRepeated? (before : List String) : List String → Option String
  | [] => none
  | path :: rest =>
    if before.contains path then some path else firstRepeated? (path :: before) rest

/-- Writes each rollback to its target. -/
def writeTargets (directory : String) : List FileRollback → FileWork (List String)
  | [] => return []
  | f :: rest => do
    let (unit, path) := target directory f
    FileWork.makeDirectories unit
    FileWork.write path f.content
    return path :: (← writeTargets directory rest)

/-- Writes the rollback of each file; nothing is written if two of them have the same path. -/
def writeFiles (b : BatchRollback) (directory : String) : FileWork (List String) := do
  match firstRepeated? [] (b.files.map fun f => (target directory f).2) with
  | some path => throw (.sharedTarget path)
  | none => writeTargets directory b.files

end BatchRollback

end Rollback
