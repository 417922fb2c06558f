import Rollback.Report.BoxTable
import Rollback.Report.Classification
import Rollback.Report.Inspection
import Rollback.Report.Rollback
import Rollback.Repository.Scan
import Rollback.Repository.Verification

/-!
# Texts for people

How notices, reports and failures look on a terminal. Each function gives whole lines.
-/

set_option autoImplicit false

namespace Rollback.CommandLine

/-- Lines, each with its end. -/
def lines (texts : List String) : String :=
  String.join (texts.map fun text => text ++ "\n")

/-! ## Scans -/

/-- The line of a notice. -/
def noticeLine : ScanNotice → String
  | .found total => ScanNotice.foundText total
  | .read position total key => s!"  → [{position}/{total}] {key}"

/-- The table of the sources with statements that could not be applied. -/
def parseErrorTable (files : List FileStats) : BoxTable where
  header := ["File", "Statements", "Applied", "Parse Errors"]
  rows := files.map fun f =>
    [f.path, toString f.statements, toString f.applied, toString f.parseErrors]

/-- The lines on a scan. -/
def scanLines (r : ScanReport) : List String :=
  if r.files.isEmpty then [s!"No SQL files found under {r.root}."]
  else
    let noisy := r.files.filter fun f => f.parseErrors > 0
    let table := if noisy.isEmpty then [] else [(parseErrorTable noisy).render]
    let errors :=
      if r.parseErrors > 0 then
        [s!"{r.parseErrors} statement(s) could not be parsed and were skipped"]
      else []
    let place := match r.catalogPath with
      | some path => "Catalog saved to " ++ path
      | none => "Catalog not saved (--no-save)."
    table ++
      [s!"Scanned {r.files.length} file(s): " ++
        s!"{r.tables} table(s), {r.views} view(s), {r.columns} column(s)"] ++
      errors ++ [place]

/-! ## Rollbacks -/

/-- The table of the rollbacks of files. -/
def rollbackTable (files : List FileRollback) : BoxTable where
  header := ["Unit", "Original", "Rollback"]
  rows := files.map fun f => [f.unitName, f.forwardName, f.rollbackName]

/-- The output on a rollback; the script itself is shown if it was not written to files. -/
def rollbackText (r : RollbackReport) (showScript : Bool) : String :=
  let files := r.rollback.files
  let shown :=
    if showScript then r.rollback.script
    else if files.isEmpty then "" else lines [(rollbackTable files).render]
  shown ++ lines (r.written.map fun path => "  wrote " ++ path)

/-- The lines that count what was reversed. -/
def rollbackSummary (r : RollbackReport) : List String :=
  let s := r.rollback.stats
  [s!"Reversed {s.statements} statement(s) from {s.files} file(s) in {s.units} unit(s): " ++
      s!"{s.reversed} reversed, {s.skipped} skipped, " ++
      s!"{s.manual} manual, {s.unsupported} unsupported"] ++
    if r.catalogUsed then [] else ["No catalog was used; dropped objects need manual rollback."]

/-! ## Classification -/

/-- The table of the statements of a file. -/
def statementTable (statements : List PlacedStatement) : BoxTable where
  header := ["#", "Kind", "Search Path", "Statement"]
  rows := (statements.zipIdx 1).map fun (p, position) =>
    [toString position, p.statement.kind, p.searchPath.getD "", p.preview]

/-- The lines on a file. -/
def fileLines (f : ClassifiedFile) : List String :=
  [f.path,
    if f.statements.isEmpty then "  (no statements)" else (statementTable f.statements).render]

/-- The lines on some files. -/
def classifyLines (r : ClassifyReport) : List String :=
  r.files.flatMap fileLines ++
    [s!"{r.statements.length} statement(s), {r.unrecognized} unrecognized"]

/-! ## Inspection -/

/-- The table of the tables of a catalog. -/
def tableSummary (rows : List ObjectSummary) : BoxTable where
  header := ["Key", "Name", "Columns", "Sources", "Comment"]
  rows := rows.map fun r =>
    [r.key, r.fullName, toString r.columns, toString r.sources, r.comment.getD ""]

/-- The table of the views of a catalog. -/
def viewSummary (rows : List ObjectSummary) : BoxTable where
  header := ["Key", "Name", "Sources"]
  rows := rows.map fun r => [r.key, r.fullName, toString r.sources]

/-- A title and a table, unless the table is empty. -/
def titled (title : String) (t : BoxTable) : List String :=
  if t.rows.isEmpty then [] else [title, t.render]

/-- The lines on a whole catalog. -/
def summaryLines (m : Metadata) (tables views : List ObjectSummary) : List String :=
  let built := (m.parsedAt.map Instant.display).getD "unknown"
  (s!"Catalog built {built} from {m.totalFiles} file(s): " ++
      s!"{m.totalTables} table(s), {m.totalViews} view(s), {m.totalColumns} column(s)") ::
    titled "Tables" (tableSummary tables) ++ titled "Views" (viewSummary views)

/-- A line with a label, if there is something to say. -/
def labelled (label : String) (text : Option String) : List String :=
  (text.map fun text => "  " ++ label ++ ": " ++ text).toList

/-- The files that mention an object, if there are any. -/
def sourcesText? (sources : List String) : Option String :=
  if sources.isEmpty then none else some (Text.join ", " sources)

/-- The table of the columns of a table. -/
def columnTable (columns : List Column) : BoxTable where
  header := ["#", "Column", "Type", "Comment"]
  rows := columns.map fun c => [toString c.ordinal, c.name, c.dataType, c.comment.getD ""]

/-- The lines on a table. -/
def tableLines (key : String) (t : Table) : List String :=
  ["Table " ++ t.fullName, "  key: " ++ key] ++ labelled "comment" t.comment ++
    labelled "distribution" (t.distribution.bind Distribution.clause?) ++
    labelled "storage" (t.storage.map StorageOptions.raw) ++ labelled "group" t.placementGroup ++
    [(columnTable t.columnsInOrder).render] ++ labelled "sources" (sourcesText? t.sources)

/-- The lines on a view. -/
def viewLines (key : String) (v : View) : List String :=
  ["View " ++ v.fullName, "  key: " ++ key, v.definition] ++
    labelled "sources" (sourcesText? v.sources)

/-- The lines on a catalog or on one object of it. -/
def inspectionLines : Inspection → List String
  | .summary metadata tables views => summaryLines metadata tables views
  | .table key t => tableLines key t
  | .view key v => viewLines key v

/-! ## Verification -/

/-- Eight hexadecimal digits. -/
def checksumText (n : UInt32) : String :=
  let digits := Nat.toDigits 16 n.toNat
  String.ofList (List.replicate (8 - digits.length) '0' ++ digits)

/-- The table of the differences between a catalog and the sources. -/
def differenceTable (r : VerifyReport) : BoxTable where
  header := ["Status", "File"]
  rows :=
    r.added.map (fun key => ["Added", key]) ++ r.removed.map (fun key => ["Removed", key]) ++
      r.modified.map fun m =>
        ["Modified", s!"{m.key} ({checksumText m.expected} → {checksumText m.actual})"]

/-- The lines on the differences between a catalog and the sources. -/
def verifyLines (r : VerifyReport) : List String :=
  if r.isStale then [(differenceTable r).render]
  else [s!"Catalog is up to date ({r.unchanged} file(s) unchanged)."]

/-! ## Failures -/

/-- What to do about failures of a category. -/
def hint? : FailureCategory → Option String
  | .configuration => some "Check your rewind.toml or the REWIND_* environment variables."
  | .catalog => some "Run 'rewind scan <repo>' to build a catalog, or pass --catalog <path>."
  | .manifest =>
    some "A manifest is a JSON array of \x7b\"name\", \"files\": [\x7b\"name\", \"path\"\x7d]\x7d."
  | .staleness =>
    some "Re-run 'rewind scan' so rollbacks are generated from the current schema."
  | .manualAction =>
    some "Search the output for /* MANUAL and /* UNSUPPORTED markers and complete them by hand."
  | _ => none

/-- The lines on a failure. -/
def failureLines (failure : Failure) : List String :=
  ("ERROR: " ++ failure.message) ::
    ((hint? failure.category).map fun text => "Hint: " ++ text).toList

/-- The status with which a run ends that fails. -/
def exitCode : FailureCategory → Nat
  | .configuration => 2
  | .reading => 3
  | .catalog => 4
  | .manifest => 4
  | .manualAction => 5
  | .staleness => 6
  | .statement => 1
  | .writing => 1

/-- A failure as an object. -/
def failureJson (failure : Failure) : Json.Value :=
  .object
    [("error", .string failure.message), ("exitCode", .counter (exitCode failure.category))]

/-- How the program is used. -/
def usage : String :=
  "Usage: rewind [--config <PATH>] [--catalog <PATH>] [--json] [--quiet] [--verbose] <COMMAND>"

/-- The lines of help. -/
def helpLines : List String :=
  ["Generate rollback scripts for forward DDL deployments", "", usage, "", "Commands:",
    "  scan [DIR] [--skip-dirs <DIRS>] [--no-save]",
    "  reverse [UNIT_DIR]... [--files <FILES>] [--manifest <PATH>] [--from-catalog]",
    "          [--output <PATH>] [--per-file <DIR>] [--prefix <PREFIX>] [--no-annotate]",
    "          [--no-catalog] [--strict]",
    "  classify <FILE>...", "  inspect [NAME]", "  verify [DIR]"]

end Rollback.CommandLine
