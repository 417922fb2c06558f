import Rollback.Repository.Discovery
import Rollback.Schema.Draft
import Rollback.Schema.Encoding
import Rollback.Settings.Basic

/-!
# Scans

Making the catalog of a repository from all of its sources.

- `scanSources`: the draft made from the sources, with a notice after each
- `scan`: the whole work, with the catalog saved if that is wanted
-/

set_option autoImplicit false

namespace Rollback

open Json (Value)

/-- A notice of the progress of a scan. -/
inductive ScanNotice where
  /-- The number of sources, before the first is read. -/
  | found (total : Nat)
  /-- A source was read, the one at this position, counted from one. -/
  | read (position total : Nat) (key : String)
deriving DecidableEq, Repr

namespace ScanNotice

/-- The text of the first notice. -/
def foundText (total : Nat) : String :=
  s!"Found {total} SQL file(s)"

/-- A notice as an object. -/
def toJson : ScanNotice → Value
  | found total =>
    .object [("current", .counter 0), ("total", .counter total),
      ("message", .string (foundText total))]
  | read position total key =>
    .object [("current", .counter position), ("total", .counter total), ("file", .string key)]

end ScanNotice

/-- The statistics of a file as an object. -/
def FileStats.toJson (s : FileStats) : Value :=
  .object
    [("path", .string s.path), ("statements", .counter s.statements),
      ("applied", .counter s.applied), ("ignored", .counter s.ignored),
      ("parse_errors", .counter s.parseErrors)]

/-- The result of a scan. -/
structure ScanReport where
  root : String
  /-- Where the catalog was saved, if it was. -/
  catalogPath : Option String
  tables : Nat
  views : Nat
  columns : Nat
  /-- Statistics of the sources in the order in which they were read. -/
  files : List FileStats

namespace ScanReport

/-- The number of statements that could not be applied. -/
def parseErrors (r : ScanReport) : Nat :=
  (r.files.map FileStats.parseErrors).foldr (· + ·) 0

/-- A report as an object. -/
def toJson (r : ScanReport) : Value :=
  .object
    [("root", .string r.root), ("catalogPath", .orNull .string r.catalogPath),
      ("filesScanned", .counter r.files.length), ("tables", .counter r.tables),
      ("views", .counter r.views), ("columns", .counter r.columns),
      ("parseErrors", .counter r.parseErrors), ("files", .array (r.files.map FileStats.toJson))]

/-- The report on a draft. -/
def ofDraft (root : String) (catalogPath : Option String) (d : Draft) : ScanReport :=
  ⟨root, catalogPath, d.catalog.tables.size, d.catalog.views.size, d.catalog.columnCount, d.files⟩

end ScanReport

/-- The draft after some sources, with a notice after each; positions count from the given one. -/
def ingestSources (t : FileTree) (total position : Nat) (d : Draft) :
    List SourceFile → List ScanNotice × Except Failure Draft
  | [] => ([], .ok d)
  | source :: rest =>
    match t.readSource source.path with
    | .error failure => ([], .error failure)
    | .ok text =>
      let (notices, result) :=
        ingestSources t total (position + 1) (d.ingest source.key text).1 rest
      (.read position total source.key :: notices, result)

/-- The draft made from all sources of a repository, with the notices on the way. -/
def scanSources (t : FileTree) (root : String) (skipped : List String) :
    List ScanNotice × Except Failure Draft :=
  match discover t root skipped with
  | .error failure => ([], .error failure)
  | .ok sources =>
    let (notices, result) := ingestSources t sources.length 1 .empty sources
    (.found sources.length :: notices, result)

/-- Writes the document of a catalog. -/
def Catalog.save (c : Catalog) (path : String) : FileWork Unit :=
  FileWork.writeWithParents path c.document

/--
The notices of a scan and its result: the report and the catalog, which is saved if that is wanted.
-/
def scan (s : Settings) (root : String) (save : Bool) (time : Option Instant) :
    StateM FileTree (List ScanNotice × Except Failure (ScanReport × Catalog)) := do
  let (notices, result) := scanSources (← get) root s.skippedDirectories
  match result with
  | .error failure => return (notices, .error failure)
  | .ok draft =>
    let catalog := draft.finish time
    if save then
      match ← (catalog.save s.catalogPath).run with
      | .ok () => return (notices, .ok (.ofDraft root (some s.catalogPath) draft, catalog))
      | .error failure => return (notices, .error failure)
    else return (notices, .ok (.ofDraft root none draft, catalog))

end Rollback
