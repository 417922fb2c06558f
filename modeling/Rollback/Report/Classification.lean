import Rollback.Deployment.Batch
import Rollback.Sql.Encoding

/-!
# Classification of files

How each statement of some files is understood.

- `classify`: the statements of files with their kinds
-/

set_option autoImplicit false

namespace Rollback

open Json (Value)

/-- The statements of a file with their search paths. -/
structure ClassifiedFile where
  path : String
  statements : List PlacedStatement

/-- The statements of some files. -/
structure ClassifyReport where
  files : List ClassifiedFile

namespace PlacedStatement

/-- The shortened text of a statement. -/
def preview (p : PlacedStatement) : String :=
  Sql.preview p.text Sql.previewLength

/-- A statement at a position as an object. -/
def toJson (p : PlacedStatement) (position : Nat) : Value :=
  .object
    [("index", .counter position), ("kind", .string p.statement.kind),
      ("searchPath", .orNull .string p.searchPath), ("preview", .string p.preview),
      ("statement", p.statement.toJson)]

end PlacedStatement

/-- The statements of a file as an object; positions count from one. -/
def ClassifiedFile.toJson (f : ClassifiedFile) : Value :=
  .object
    [("path", .string f.path),
      ("statements", .array ((f.statements.zipIdx 1).map fun (p, position) => p.toJson position))]

namespace ClassifyReport

/-- The statements of all files. -/
def statements (r : ClassifyReport) : List PlacedStatement :=
  r.files.flatMap ClassifiedFile.statements

/-- The number of statements of an unknown kind. -/
def unrecognized (r : ClassifyReport) : Nat :=
  r.statements.countP fun p => !p.statement.isRecognized

/-- A report as an object. -/
def toJson (r : ClassifyReport) : Value :=
  .object
    [("files", .array (r.files.map ClassifiedFile.toJson)),
      ("totalStatements", .counter r.statements.length),
      ("unrecognized", .counter r.unrecognized)]

end ClassifyReport

/-- The statements of files with their kinds. -/
def classify (t : FileTree) (paths : List String) : Except Failure ClassifyReport := do
  let files ← paths.mapM fun path => do
    return ⟨path, placeStatements none (Sql.actions (← t.readSource path))⟩
  return ⟨files⟩

end Rollback
