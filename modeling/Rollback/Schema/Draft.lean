import Rollback.Checksum.Crc32
import Rollback.Schema.Catalog
import Rollback.Schema.Declaration
import Rollback.Sql.Recognition

/-!
# Drafts of catalogs

A catalog in the making. Statements are applied to it in the order of the files and of the
statements in them, because a search path holds for all later names until it is changed.

- `Draft.apply`: one statement
- `Draft.ingest`: one file
- `Draft.finish`: the catalog
-/

set_option autoImplicit false

namespace Rollback

/-- What became of the statements of a file. -/
structure FileStats where
  path : String
  statements : Nat
  applied : Nat
  ignored : Nat
  parseErrors : Nat
deriving DecidableEq, Repr

/-- Statistics of a file before its first statement. -/
def FileStats.start (path : String) : FileStats := ⟨path, 0, 0, 0, 0⟩

/-- What applying a statement did. -/
inductive Applied where
  | changed
  | ignored
deriving DecidableEq, Repr

/-- A catalog in the making. -/
structure Draft where
  catalog : Catalog
  /-- The schema in effect for names without one. -/
  searchPath : Option String
  /-- Statistics of the files read so far. -/
  files : List FileStats

namespace Table

/-- The declared columns by their keys; a column that is known keeps all but name, type
and place. -/
def declareColumns (columns : KeyMap Column) (declared : List (Nat × String × String)) :
    KeyMap Column :=
  declared.foldl (fun columns (ordinal, name, dataType) =>
    columns.update name.lowerCase (Column.declared name dataType ordinal) fun c =>
      { c with name, dataType, ordinal }) columns

/-- The keys of the columns that are not among the given keys, by position and key. -/
def undeclaredKeys (columns : KeyMap Column) (declared : List String) : List String :=
  let others := columns.entries.filter fun e => !declared.contains e.1
  (others.mergeSort fun a b =>
    a.2.ordinal < b.2.ordinal || (a.2.ordinal == b.2.ordinal && a.1 ≤ b.1)).map Prod.fst

/-- The columns with those of the given keys moved to consecutive positions. -/
def placeColumns (columns : KeyMap Column) (first : Nat) (keys : List String) : KeyMap Column :=
  columns.mapValues fun key c =>
    match keys.idxOf? key with
    | some offset => { c with ordinal := first + offset }
    | none => c

/-- The table after a declaration; a clause that the declaration lacks stays as it was. -/
def declare (t : Table) (name : ObjectName) (d : Declaration) : Table :=
  let numbered := d.columns.zipIdx.map fun ((name, dataType), ordinal) => (ordinal, name, dataType)
  let declared := d.columns.map fun column => column.1.lowerCase
  let columns := declareColumns t.columns numbered
  { t with
    name := name.name
    fullName := name.render
    -- Columns that the declaration does not mention come after those that it does.
    columns := placeColumns columns d.columns.length (undeclaredKeys columns declared)
    distribution := d.distribution <|> t.distribution
    storage := d.storage <|> t.storage
    placementGroup := d.placementGroup <|> t.placementGroup }

end Table

namespace Draft

/-- A draft without any statement. -/
def empty : Draft := ⟨.empty, none, []⟩

instance : Inhabited Draft := ⟨empty⟩

/-- The name as seen with the search path in effect. -/
def resolve (d : Draft) (name : ObjectName) : ObjectName :=
  name.resolve d.searchPath

/-- The draft with the table of a name changed, which a file mentions. -/
def mentionTable (d : Draft) (name : ObjectName) (source : String) (change : Table → Table) :
    Draft :=
  { d with
    catalog := d.catalog.updateTable (d.resolve name) fun t => change (t.withSource source) }

/-- The draft with the view of a name changed, which a file mentions. -/
def mentionView (d : Draft) (name : ObjectName) (definition source : String)
    (change : View → View) : Draft :=
  { d with
    catalog :=
      d.catalog.updateView (d.resolve name) definition fun v => (change v).withSource source }

/-- The draft with a comment statement kept in the definition of a view, if the view is known. -/
def commentInView? (d : Draft) (name : ObjectName) (stmt source : String) : Option Draft :=
  if d.catalog.views.contains (d.resolve name).key then
    some (d.mentionView name stmt source fun v => v.append stmt)
  else none

/-- The draft after a statement, given by its characters without blanks around them. -/
def applyTrimmed (d : Draft) (stmt : List Char) (source : String) :
    Except Failure (Draft × Applied) :=
  let text := String.ofList stmt
  match Statement.ofChars stmt with
  | .setSearchPath schema => .ok ({ d with searchPath := some schema.lowerCase }, .changed)
  | .createTable name => do
    let declaration ← Declaration.ofChars stmt
    return (d.mentionTable name source fun t => t.declare (d.resolve name) declaration, .changed)
  | .commentOnTable table comment =>
    .ok (d.mentionTable table source fun t => { t with comment }, .changed)
  | .commentOnColumn table column comment =>
    let inTable := d.mentionTable table source fun t =>
      t.withColumn column fun c => { c with comment }
    .ok ((d.commentInView? table text source).getD inTable, .changed)
  | .commentOnView view _ =>
    -- Of an unknown view, the comment is all that is known.
    let created := d.mentionView view text source id
    .ok ((d.commentInView? view text source).getD created, .changed)
  | .createView name =>
    .ok (d.mentionView name text source fun v => { v with definition := text }, .changed)
  | _ => .ok (d, .ignored)

/-- The draft after a statement of a file, and what the statement did. -/
def apply (d : Draft) (stmt source : String) : Except Failure (Draft × Applied) :=
  d.applyTrimmed (Text.trim stmt.toList) source

/-- The draft and the statistics after one more statement; a malformed one is only counted. -/
def ingestStatement (source : String) (state : Draft × FileStats) (stmt : String) :
    Draft × FileStats :=
  let (d, stats) := state
  let stats := { stats with statements := stats.statements + 1 }
  match d.apply stmt source with
  | .ok (d, .changed) => (d, { stats with applied := stats.applied + 1 })
  | .ok (d, .ignored) => (d, { stats with ignored := stats.ignored + 1 })
  | .error _ => (d, { stats with parseErrors := stats.parseErrors + 1 })

/-- The draft after all statements of a file, and their statistics. -/
def ingest (d : Draft) (path script : String) : Draft × FileStats :=
  let (d, stats) := (Sql.actions script).foldl (ingestStatement path) (d, .start path)
  let catalog := d.catalog.withChecksum path script.crc32
  ({ d with catalog, files := d.files ++ [stats] }, stats)

/-- The catalog with its totals and the time at which it was made. -/
def finish (d : Draft) (time : Option Instant) : Catalog :=
  d.catalog.stamped d.files.length time

/-- The draft after some files, given by their paths and texts. -/
def ofFiles (files : List (String × String)) : Draft :=
  files.foldl (fun d (path, script) => (d.ingest path script).1) empty

end Draft

end Rollback
