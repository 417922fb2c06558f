import Rollback.Files.Tree
import Rollback.Schema.Decoding

/-!
# Catalog files

Reading of the document in which a catalog is kept.
-/

set_option autoImplicit false

namespace Rollback.Catalog

/-- The catalog of a file. -/
def load (t : FileTree) (path : String) : Except Failure Catalog := do
  match ofDocument? (← t.readSource path) with
  | some c => return c
  | none => .error (.malformedCatalog (some path))

/-- The catalog of a file, unless there is no such file. -/
def loadIfPresent (t : FileTree) (path : String) : Except Failure (Option Catalog) :=
  if t.contains path then (load t path).map some else .ok none

end Rollback.Catalog
