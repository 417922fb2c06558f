import Rollback.Reversal.Basic
import Rollback.Schema.Catalog

/-!
# Reconstruction of tables

Statements that bring a table of a catalog back, and those that drop all of its tables.

- `Table.creation`: CREATE TABLE and the comments on the table and its columns
- `Catalog.drops`: a DROP TABLE for each table, the last key first
-/

set_option autoImplicit false

namespace Rollback

/-- Clauses for tables that have none of their own. -/
structure TableDefaults where
  /-- A whole clause of storage options. -/
  storage : Option String
  distribution : Option Distribution
  placementGroup : Option String
deriving DecidableEq

/-- No clauses. -/
def TableDefaults.none : TableDefaults := ⟨.none, .none, .none⟩

instance : Inhabited TableDefaults := ⟨.none⟩

/-- The statement that sets the comment on a table; the comment is taken as it was written. -/
def tableComment (table comment : String) : String :=
  s!"COMMENT ON TABLE {table} IS '{comment}';"

/-- The statement that sets the comment on a column; the comment is taken as it was written. -/
def columnComment (table column comment : String) : String :=
  s!"COMMENT ON COLUMN {table}.{column} IS '{comment}';"

/-- The statement that drops a table. -/
def tableDrop (table : String) : String :=
  s!"DROP TABLE IF EXISTS {table};"

namespace Table

/-- The name of a table with its schema, if that is known. -/
def qualifiedName (t : Table) : String :=
  if t.fullName.contains '.' then t.fullName
  else
    let name := if t.fullName.isEmpty then t.name else t.fullName
    match t.schema with
    | some schema => schema ++ "." ++ name
    | none => name

/-- The lines for the columns in the body of a CREATE TABLE statement. -/
def columnLines (t : Table) : String :=
  Text.join ",\n" (t.columnsInOrder.map fun c => "  " ++ c.name ++ " " ++ c.dataType)

/-- The clause of storage options of a table or, failing that, of the defaults. -/
def storageClause? (t : Table) (defaults : TableDefaults) : Option String :=
  (t.storage.map StorageOptions.raw).filter (fun raw => !raw.isEmpty) <|> defaults.storage

/-- The distribution clause of a table or, failing that, of the defaults. -/
def distributionClause? (t : Table) (defaults : TableDefaults) : Option String :=
  (t.distribution <|> defaults.distribution).bind Distribution.clause?

/-- The clause for the group of nodes of a table or, failing that, of the defaults. -/
def placementClause? (t : Table) (defaults : TableDefaults) : Option String :=
  (t.placementGroup <|> defaults.placementGroup).map fun group =>
    "TO GROUP \x22" ++ group ++ "\x22"

/-- The line that closes the body of a CREATE TABLE statement, with the storage options. -/
def closingLine (t : Table) (defaults : TableDefaults) : String :=
  match t.storageClause? defaults with
  | some clause => ") " ++ clause
  | none => ")"

/-- The CREATE TABLE statement of a table. -/
def createStatement (t : Table) (defaults : TableDefaults) : String :=
  Text.join "\n"
    (["CREATE TABLE " ++ t.qualifiedName ++ " (", t.columnLines, t.closingLine defaults] ++
      (t.distributionClause? defaults).toList ++ (t.placementClause? defaults).toList) ++ ";"

/-- The statements for the comments on a table and on its columns. -/
def commentStatements (t : Table) : List String :=
  (t.comment.map (tableComment t.qualifiedName)).toList ++
    t.columnsInOrder.filterMap fun c => c.comment.map (columnComment t.qualifiedName c.name)

/-- The statements that bring a table back, one after another. -/
def creation (t : Table) (defaults : TableDefaults) : String :=
  Text.join "\n" (t.createStatement defaults :: t.commentStatements)

/-- What is said about a table before it is dropped. -/
def dropNote (t : Table) : String :=
  match t.comment with
  | some comment => s!"table: {t.qualifiedName} ({softenCommentEnds comment})"
  | none => s!"table: {t.qualifiedName}"

/-- The statement that drops a table, after a note if one is wanted. -/
def drop (t : Table) (annotate : Bool) : String :=
  if annotate then blockComment t.dropNote ++ "\n" ++ tableDrop t.qualifiedName
  else tableDrop t.qualifiedName

end Table

/-- The statements that drop all tables of a catalog, the last key first. -/
def Catalog.drops (c : Catalog) (annotate : Bool) : List String :=
  c.tables.values.reverse.map fun t => t.drop annotate

end Rollback
