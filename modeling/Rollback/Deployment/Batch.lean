import Rollback.Deployment.Unit
import Rollback.Reversal.Statement

/-!
# Batches

The rollback of a whole deployment. It undoes the last unit first, in a unit the last file first,
and in a file the last statement first.

- `Batch.reverseStatements`, `Batch.reverseScript`: the rollback of one file
- `Batch.reverseUnits`: the rollback of a deployment
-/

set_option autoImplicit false

namespace Rollback

/-- What rollback scripts look like. -/
structure BatchStyle where
  /-- What the names of rollback files start with. -/
  filePrefix : String
  /-- Whether the forward statement stands before its reversal. -/
  annotate : Bool
deriving DecidableEq, Repr

/-- The usual look of rollback scripts. -/
def BatchStyle.standard : BatchStyle := ⟨"rollback_", true⟩

/-- Counts of what was reversed and how. -/
structure BatchStats where
  units : Nat
  files : Nat
  statements : Nat
  reversed : Nat
  manual : Nat
  unsupported : Nat
  skipped : Nat
deriving DecidableEq, Repr

namespace BatchStats

/-- Counts of nothing. -/
def zero : BatchStats := ⟨0, 0, 0, 0, 0, 0, 0⟩

instance : Inhabited BatchStats := ⟨zero⟩

/-- The counts of two parts together. -/
def add (a b : BatchStats) : BatchStats :=
  ⟨a.units + b.units, a.files + b.files, a.statements + b.statements, a.reversed + b.reversed,
    a.manual + b.manual, a.unsupported + b.unsupported, a.skipped + b.skipped⟩

instance : Add BatchStats := ⟨add⟩

/-- The counts of one reversal. -/
def ofReversal : Reversal → BatchStats
  | .statement _ => { zero with statements := 1, reversed := 1 }
  | .manual _ => { zero with statements := 1, manual := 1 }
  | .unsupported => { zero with statements := 1, unsupported := 1 }
  | .skipped => { zero with statements := 1, skipped := 1 }

/-- The counts of several parts together. -/
def sum (parts : List BatchStats) : BatchStats :=
  parts.foldl add zero

/-- The statements whose rollback is to be completed by hand. -/
def needsAttention (s : BatchStats) : Nat :=
  s.manual + s.unsupported

/-- The counts as an object. -/
def toJson (s : BatchStats) : Json.Value :=
  .object
    [("units", .counter s.units), ("files", .counter s.files),
      ("statements", .counter s.statements), ("reversed", .counter s.reversed),
      ("manual", .counter s.manual), ("unsupported", .counter s.unsupported),
      ("skipped", .counter s.skipped)]

end BatchStats

/-- A name as one component of a path; names that are none become `missing`. -/
def sanitizeComponent (name missing : String) : String :=
  let cleaned := name.toList.map fun c => if c == '/' || c == '\\' || c == ':' then '_' else c
  let trimmed := String.ofList (Text.trim cleaned)
  if trimmed == "" || trimmed == "." || trimmed == ".." then missing else trimmed

/-- The name of a rollback file whose name would be empty. -/
def namelessRollback : String := "rollback.sql"

/-- The name of a unit whose name would be empty. -/
def namelessUnit : String := "unit"

/-- The rollback of one forward file. -/
structure FileRollback where
  forwardName : String
  rollbackName : String
  content : String
  forwardPath : String
  unitName : String
deriving DecidableEq, Repr

/-- A rollback as an object. -/
def FileRollback.toJson (f : FileRollback) : Json.Value :=
  .object
    [("originalFileName", .string f.forwardName), ("reverseFileName", .string f.rollbackName),
      ("content", .string f.content), ("originalPath", .string f.forwardPath),
      ("unitName", .string f.unitName)]

/-- The rollback of a deployment. -/
structure BatchRollback where
  /-- The rollbacks of all files, each with an empty line after it. -/
  script : String
  /-- The rollbacks of the files that have any, in the order of the rollback. -/
  files : List FileRollback
  stats : BatchStats
deriving DecidableEq, Repr

/-- The rollback of nothing. -/
def BatchRollback.empty : BatchRollback := ⟨"", [], .zero⟩

/-- The rollback of two parts of a deployment, in the order of the rollback. -/
def BatchRollback.append (a b : BatchRollback) : BatchRollback :=
  ⟨a.script ++ b.script, a.files ++ b.files, a.stats + b.stats⟩

instance : Append BatchRollback := ⟨BatchRollback.append⟩

/-- A rollback of a deployment as an object. -/
def BatchRollback.toJson (b : BatchRollback) : Json.Value :=
  .object
    [("script", .string b.script), ("files", .array (b.files.map FileRollback.toJson)),
      ("stats", b.stats.toJson)]

/-- A forward statement with the search path that is in effect when it runs. -/
structure PlacedStatement where
  text : String
  statement : Statement
  searchPath : Option String

/-- Forward statements with their search paths; the given one is in effect before them. -/
def placeStatements (searchPath : Option String) : List String → List PlacedStatement
  | [] => []
  | text :: rest =>
    let statement := Statement.ofText text
    let searchPath := statement.searchPathAfter searchPath
    ⟨text, statement, searchPath⟩ :: placeStatements searchPath rest

namespace Statement

/-- Whether the statement creates a table. -/
def isCreateTable : Statement → Bool
  | createTable _ => true
  | _ => false

/-- Whether the statement sets the search path. -/
def isSetSearchPath : Statement → Bool
  | setSearchPath _ => true
  | _ => false

end Statement

/-- Whether statements create tables and do nothing else but comment and set the search path. -/
def onlyCreatesTables (statements : List Statement) : Bool :=
  statements.any Statement.isCreateTable &&
    statements.all fun s => s.isCreateTable || s.isSetSearchPath || s.isComment

/-- What stands before a reversal: the forward statement in a comment. -/
def originalComment (stmt : String) : String :=
  blockComment ("original: " ++ softenCommentEnds stmt.trimBlanks)

/-- The settings for the rollback of a deployment. -/
structure Batch where
  reverser : Reverser
  style : BatchStyle

namespace Batch

/-- The reversal of a statement; comments go with the tables of a file that only creates tables. -/
def reversePlaced (b : Batch) (createsOnly : Bool) (p : PlacedStatement) : Reversal :=
  if createsOnly && p.statement.isComment then .skipped
  else b.reverser.undo p.searchPath p.statement

/-- What stands in a script for a reversal, after an annotation if one is wanted. -/
def passage? (b : Batch) (stmt : String) (reversal : Reversal) : Option String :=
  reversal.script?.map fun text =>
    if b.style.annotate then originalComment stmt ++ "\n" ++ text else text

/-- The statements of a file with their reversals, the last statement first. -/
def reversals (b : Batch) (stmts : List String) : List (String × Reversal) :=
  let placed := placeStatements none stmts
  let createsOnly := onlyCreatesTables (placed.map PlacedStatement.statement)
  placed.reverse.map fun p => (p.text, b.reversePlaced createsOnly p)

/-- The rollback of the statements of a file, with an empty line between reversals. -/
def reverseStatements (b : Batch) (stmts : List String) : String × BatchStats :=
  let reversals := b.reversals stmts
  (Text.join "\n\n" (reversals.filterMap fun (stmt, reversal) => b.passage? stmt reversal),
    .sum (reversals.map fun (_, reversal) => .ofReversal reversal))

/-- The rollback of a script. -/
def reverseScript (b : Batch) (script : String) : String × BatchStats :=
  b.reverseStatements (Sql.actions script)

/-- The name of the rollback file for a forward file. -/
def rollbackName (b : Batch) (name : String) : String :=
  sanitizeComponent (b.style.filePrefix ++ name) namelessRollback

/-- The rollback of one file of a unit, given its text. -/
def reverseFile (b : Batch) (unit : String) (file : DeploymentFile) (text : String) :
    BatchRollback :=
  let (content, stats) := b.reverseScript text
  let stats := stats + { BatchStats.zero with files := 1 }
  -- A file whose rollback is empty is counted but leaves no trace in the script.
  if content.isEmpty then ⟨"", [], stats⟩
  else
    ⟨content ++ "\n\n", [⟨file.name, b.rollbackName file.name, content, file.path, unit⟩], stats⟩

/-- The rollback of some files of a unit, in the order of the rollback. -/
def reverseFiles (b : Batch) (t : FileTree) (unit : String) :
    List DeploymentFile → Except Failure BatchRollback
  | [] => .ok .empty
  | file :: rest => do
    let text ← file.load t
    return b.reverseFile unit file text ++ (← b.reverseFiles t unit rest)

/-- The rollback of some units, in the order of the rollback. -/
def reverseInOrder (b : Batch) (t : FileTree) :
    List DeploymentUnit → Except Failure BatchRollback
  | [] => .ok .empty
  | u :: rest => do
    let files ← b.reverseFiles t u.name u.files.reverse
    let counted : BatchRollback := ⟨"", [], { BatchStats.zero with units := 1 }⟩
    return counted ++ files ++ (← b.reverseInOrder t rest)

/-- The rollback of a deployment. -/
def reverseUnits (b : Batch) (t : FileTree) (units : List DeploymentUnit) :
    Except Failure BatchRollback :=
  b.reverseInOrder t units.reverse

end Batch

end Rollback
