import Rollback.Deployment.Batch

/-!
# Settings

What a run can be told: where the catalog is kept, which directories are left alone, what rollback
scripts look like, and which clauses tables get that have none.
-/

set_option autoImplicit false

namespace Rollback

/-- The settings of a run. -/
structure Settings where
  /-- The path of the catalog document. -/
  catalogPath : String
  /-- Names of directories that are not searched, in any letter case. -/
  skippedDirectories : List String
  style : BatchStyle
  defaults : TableDefaults

/-- Names of directories that hold no sources. -/
def standardSkippedDirectories : List String :=
  ["node_modules", ".git", ".svn", ".hg", "target", "build", "dist", "out", ".idea", ".vscode",
    ".vs", "bin", "obj", "logs", "temp", "tmp"]

/-- The settings of a run that is told nothing. -/
def Settings.standard : Settings :=
  ⟨".rewind/catalog.json", standardSkippedDirectories, .standard, .none⟩

instance : Inhabited Settings := ⟨.standard⟩

end Rollback
