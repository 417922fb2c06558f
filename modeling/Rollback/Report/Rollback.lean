import Rollback.Deployment.Output
import Rollback.Settings.Basic

/-!
# Rollback runs

Making the rollback of a deployment, or of a whole catalog, and writing it to files.

- `DeploymentSource.resolve`: the units of the deployment that a source describes
- `reverseDeployment`: the rollback of a deployment
- `reverseCatalog`: statements that drop all tables of a catalog
-/

set_option autoImplicit false

namespace Rollback

open Json (Value)

/-- Where a deployment comes from. -/
inductive DeploymentSource where
  /-- Directories, each of which is a unit. -/
  | directories (paths : List String)
  /-- Files that make one unit. -/
  | files (paths : List String)
  | manifest (path : String)
  | units (units : List DeploymentUnit)

/-- The deployment that a source describes. -/
def DeploymentSource.resolve (t : FileTree) :
    DeploymentSource → Except Failure (List DeploymentUnit)
  | directories paths => paths.mapM (DeploymentUnit.ofDirectory t)
  | files paths => .ok [.ofFiles paths]
  | manifest path => DeploymentUnit.ofManifest t path
  | units us => .ok us

/-- Where a rollback is written to. -/
structure RollbackTargets where
  /-- A file for the rollback of the whole deployment. -/
  script : Option String
  /-- A directory for the rollbacks of the files. -/
  directory : Option String
deriving DecidableEq, Repr

/-- A rollback and the files that it was written to. -/
structure RollbackReport where
  rollback : BatchRollback
  written : List String
  /-- Whether there was a catalog to look things up in. -/
  catalogUsed : Bool

namespace RollbackReport

/-- Fails if a statement is to be completed by hand. -/
def requireComplete (r : RollbackReport) : Except Failure Unit :=
  match r.rollback.stats.needsAttention with
  | 0 => .ok ()
  | count => .error (.manualActionRequired count)

/-- A report as an object. -/
def toJson (r : RollbackReport) : Value :=
  .object
    [("script", .string r.rollback.script),
      ("files", .array (r.rollback.files.map FileRollback.toJson)),
      ("stats", r.rollback.stats.toJson), ("written", .strings r.written),
      ("catalogUsed", .bool r.catalogUsed)]

end RollbackReport

/-- Writes the rollback of the whole deployment, if that is wanted. -/
def writeWanted (rollback : BatchRollback) : Option String → FileWork (List String)
  | none => return []
  | some path => do
    rollback.writeScript path
    return [path]

/-- The rollback of a deployment, written to the wanted targets. -/
def reverseDeployment (s : Settings) (catalog : Option Catalog) (source : DeploymentSource)
    (targets : RollbackTargets) : FileWork RollbackReport := do
  let batch : Batch := ⟨⟨catalog, s.defaults⟩, s.style⟩
  let rollback ← FileWork.look fun t => do batch.reverseUnits t (← source.resolve t)
  let script ← writeWanted rollback targets.script
  let files ← match targets.directory with
    | none => pure []
    | some directory => rollback.writeFiles directory
  return ⟨rollback, script ++ files, catalog.isSome⟩

/-- The statements that drop all tables of a catalog as a rollback. -/
def Catalog.dropAll (c : Catalog) (annotate : Bool) : BatchRollback :=
  let drops := c.drops annotate
  ⟨String.join (drops.map fun drop => drop ++ "\n\n"), [],
    { BatchStats.zero with statements := drops.length, reversed := drops.length }⟩

/-- The rollback of a whole catalog, written to one file if that is wanted. -/
def reverseCatalog (s : Settings) (c : Catalog) (script : Option String) :
    FileWork RollbackReport := do
  let rollback := c.dropAll s.style.annotate
  return ⟨rollback, ← writeWanted rollback script, true⟩

end Rollback
