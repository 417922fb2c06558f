import Rollback.Checksum.Crc32
import Rollback.Repository.Discovery
import Rollback.Schema.Catalog

/-!
# Verification

Comparing a catalog with the sources that it was made from, by their checksums.

- `verify`: what was added, removed and modified since the catalog was made
- `VerifyReport.requireFresh`: a failure if there is any of it
-/

set_option autoImplicit false

namespace Rollback

open Json (Value)

/-- A source that is not what it was when the catalog was made. -/
structure ModifiedFile where
  key : String
  expected : UInt32
  actual : UInt32
deriving DecidableEq, Repr

/-- The differences between a catalog and the sources. -/
structure VerifyReport where
  added : List String
  removed : List String
  modified : List ModifiedFile
  unchanged : Nat
deriving DecidableEq, Repr

/-- How a source compares with the catalog. -/
inductive SourceState where
  | added
  | modified (expected : UInt32)
  | unchanged
deriving DecidableEq, Repr

/-- How a source with a checksum compares with the recorded ones. -/
def sourceState (recorded : KeyMap UInt32) (key : String) (actual : UInt32) : SourceState :=
  match recorded.get? key with
  | none => .added
  | some expected => if expected == actual then .unchanged else .modified expected

/-- The sources of a repository with the checksums of their texts. -/
def checksums (t : FileTree) (sources : List SourceFile) :
    Except Failure (List (String × UInt32)) :=
  sources.mapM fun source => do return (source.key, (← t.readSource source.path).crc32)

namespace VerifyReport

/-- The differences between recorded checksums and those of the sources. -/
def ofChecksums (recorded : KeyMap UInt32) (found : List (String × UInt32)) : VerifyReport where
  added := found.filterMap fun (key, actual) =>
    if sourceState recorded key actual == .added then some key else none
  removed := recorded.keys.filter fun key => !(found.map Prod.fst).contains key
  modified := found.filterMap fun (key, actual) =>
    match sourceState recorded key actual with
    | .modified expected => some ⟨key, expected, actual⟩
    | _ => none
  unchanged := found.countP fun (key, actual) => sourceState recorded key actual == .unchanged

/-- Whether there is any difference. -/
def isStale (r : VerifyReport) : Bool :=
  !r.added.isEmpty || !r.removed.isEmpty || !r.modified.isEmpty

/-- Fails if there is any difference. -/
def requireFresh (r : VerifyReport) : Except Failure Unit :=
  if r.isStale then
    .error (.staleCatalog r.added.length r.removed.length r.modified.length)
  else .ok ()

/-- A report as an object. -/
def toJson (r : VerifyReport) : Value :=
  .object
    [("added", .strings r.added), ("removed", .strings r.removed),
      ("modified", .array (r.modified.map fun m =>
        .object [("path", .string m.key), ("expectedChecksum", .counter m.expected.toNat),
          ("actualChecksum", .counter m.actual.toNat)])),
      ("unchanged", .counter r.unchanged), ("stale", .bool r.isStale)]

end VerifyReport

/-- The differences between a catalog and the sources of a repository. -/
def verify (t : FileTree) (c : Catalog) (root : String) (skipped : List String) :
    Except Failure VerifyReport := do
  let sources ← discover t root skipped
  return .ofChecksums c.metadata.checksums (← checksums t sources)

end Rollback
