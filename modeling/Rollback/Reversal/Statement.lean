import Rollback.Reversal.Reconstruction
import Rollback.Sql.Recognition

/-!
# Reversals of statements

How each kind of forward statement is undone. A catalog, which need not be at hand, tells what a
statement destroys; where that is not known, the reversal is a marker.

- `Reverser.undo`: the reversal of a recognized statement
- `Reverser.reverse`: the reversal of a text, which may chain several actions
-/

set_option autoImplicit false

namespace Rollback

/-- What is known when statements are reversed. -/
structure Reverser where
  catalog : Option Catalog
  defaults : TableDefaults

/-- Whether a text names a data type. -/
def isKnownType (dataType : String) : Bool :=
  !dataType.isEmpty && !Text.eqIgnoringCase dataType.toList unknownType.toList

namespace Reverser

/-- The table of a name. -/
def table? (r : Reverser) (searchPath : Option String) (name : ObjectName) : Option Table :=
  r.catalog.bind fun c => c.table? name searchPath

/-- The view of a name. -/
def view? (r : Reverser) (searchPath : Option String) (name : ObjectName) : Option View :=
  r.catalog.bind fun c => c.view? name searchPath

/-- The column of a table. -/
def column? (r : Reverser) (searchPath : Option String) (table : ObjectName) (column : String) :
    Option Column :=
  (r.table? searchPath table).bind fun t => t.column? column

/-- The column of a table, if its type is known. -/
def typedColumn? (r : Reverser) (searchPath : Option String) (table : ObjectName)
    (column : String) : Option Column :=
  (r.column? searchPath table column).filter fun c => isKnownType c.dataType

/-- The definition of a view, if there is more to it than blanks. -/
def viewDefinition? (r : Reverser) (searchPath : Option String) (name : ObjectName) :
    Option String :=
  ((r.view? searchPath name).map View.definition).filter fun text =>
    !(Text.trim text.toList).isEmpty

/-- The optional word COLUMN, with a space after it. -/
def columnWord (written : Bool) : String :=
  if written then "COLUMN " else ""

/-- The table is created again as the catalog has it. Without columns there is only a hint; if a
type is missing, the statements are there but need a review. -/
def undoDropTable (r : Reverser) (searchPath : Option String) (name : ObjectName) : Reversal :=
  match (r.table? searchPath name).filter fun t => !t.columns.isEmpty with
  | none => .marked s!"table structure needed: CREATE TABLE {name} (<columns>);"
  | some t =>
    let sql := t.creation r.defaults
    if t.columns.values.all fun c => isKnownType c.dataType then .statement sql
    else
      .marked s!"column types missing from catalog for {name}, review before running:\n{sql}\n"

/-- The column is dropped, with the word COLUMN as in the forward statement; only that form has IF
EXISTS. -/
def undoAddColumn (table : ObjectName) (column : String) (written : Bool) : Reversal :=
  if written then .statement s!"ALTER TABLE {table} DROP COLUMN IF EXISTS {column};"
  else .statement s!"ALTER TABLE {table} DROP {column};"

/-- The statements that add a column of a catalog again, with its comment. -/
def columnCreation (table : ObjectName) (column : String) (written : Bool) (c : Column) :
    String :=
  let word := columnWord written
  let options := c.optionClauses
  Text.join "\n"
    (s!"ALTER TABLE {table} ADD {word}{column} {c.dataType}{options};" ::
      (c.comment.map (columnComment table.render column)).toList)

/-- The column is added again with its type, its options and its comment. -/
def undoDropColumn (r : Reverser) (searchPath : Option String) (table : ObjectName)
    (column : String) (written : Bool) : Reversal :=
  let word := columnWord written
  match r.typedColumn? searchPath table column with
  | none => .marked s!"column type needed: ALTER TABLE {table} ADD {word}{column} <type>;"
  | some c => .statement (columnCreation table column written c)

/-- The type that the column had before is put back; its options are left alone. -/
def undoModifyColumn (r : Reverser) (searchPath : Option String) (table : ObjectName)
    (column : String) (written : Bool) : Reversal :=
  let word := columnWord written
  match r.typedColumn? searchPath table column with
  | some c => .statement s!"ALTER TABLE {table} MODIFY {word}{column} {c.dataType};"
  | none =>
    .marked
      s!"original column type needed: ALTER TABLE {table} MODIFY {word}{column} <original type>;"

/-- A partition with a name is dropped, and its bounds are kept in a comment. -/
def undoAddPartition (table : ObjectName) (partition bounds : Option String) : Reversal :=
  match partition with
  | some name =>
    .statement <|
      Text.join "\n"
        (s!"ALTER TABLE {table} DROP PARTITION {name};" ::
          (bounds.map fun text => blockComment ("original range: " ++ text)).toList)
  | none =>
    .marked
      ("partition name not found, for example: " ++
        s!"ALTER TABLE {table} DROP PARTITION <partition_name>;")

/-- The bounds of a partition are not in a catalog, so it cannot be attached again. -/
def undoDetachPartition (table child : ObjectName) : Reversal :=
  .marked
    ("partition bounds are not recorded, for example: " ++
      s!"ALTER TABLE {table} ATTACH PARTITION {child} FOR VALUES ...;")

/-- The view that was there before is put back; a new one is dropped. -/
def undoCreateView (r : Reverser) (searchPath : Option String) (name : ObjectName) : Reversal :=
  match r.viewDefinition? searchPath name with
  | some definition => .statement definition
  | none => .statement s!"DROP VIEW IF EXISTS {name};"

/-- The view is put back as it is known. -/
def undoDropView (r : Reverser) (searchPath : Option String) (name : ObjectName) : Reversal :=
  match r.viewDefinition? searchPath name with
  | some definition => .statement definition
  | none => .marked s!"view definition needed: CREATE OR REPLACE VIEW {name} AS SELECT ...;"

/-- The comment that the table had before is put back; an absent one becomes the empty one. -/
def undoCommentOnTable (r : Reverser) (searchPath : Option String) (table : ObjectName) :
    Reversal :=
  match r.table? searchPath table with
  | some t => .statement (tableComment table.render (t.comment.getD ""))
  | none => .marked s!"no catalog information for table {table}, prior comment unknown"

/-- Comments on columns of a view come back with it; an unknown column is a new one. -/
def undoCommentOnColumn (r : Reverser) (searchPath : Option String) (table : ObjectName)
    (column : String) : Reversal :=
  if (r.view? searchPath table).isSome then .skipped
  else
    match r.column? searchPath table column with
    | some c => .statement (columnComment table.render column (c.comment.getD ""))
    | none => .skipped

/-- The reversal of a statement that was read with a search path in effect. -/
def undo (r : Reverser) (searchPath : Option String) : Statement → Reversal
  | .setSearchPath _ => .skipped
  | .createTable name => .statement (tableDrop name.render)
  | .dropTable name => r.undoDropTable searchPath name
  | .addColumn table column _ written => undoAddColumn table column written
  | .dropColumn table column written => r.undoDropColumn searchPath table column written
  | .modifyColumn table column _ written => r.undoModifyColumn searchPath table column written
  | .addPartition table partition bounds => undoAddPartition table partition bounds
  | .attachPartition table child =>
    .statement s!"ALTER TABLE {table} DETACH PARTITION {child};"
  | .detachPartition table child => undoDetachPartition table child
  | .renameTable source target => .statement s!"RENAME TABLE {target} TO {source};"
  | .renameColumn table source target =>
    .statement s!"ALTER TABLE {table} RENAME COLUMN {target} TO {source};"
  | .renameBare table source target =>
    .statement s!"ALTER TABLE {table} RENAME {target} TO {source};"
  | .renameTo table target =>
    let renamed := table.withName target.name
    .statement s!"ALTER TABLE {renamed} RENAME TO {table.name};"
  | .createIndex name _ _ => .statement s!"DROP INDEX IF EXISTS {name};"
  | .dropIndex name =>
    .marked s!"index definition is not recorded: CREATE INDEX {name} ON <table> (<columns>);"
  | .createView name => r.undoCreateView searchPath name
  | .dropView name => r.undoDropView searchPath name
  | .renameView view target =>
    let renamed := view.withName target.name
    .statement s!"ALTER VIEW {renamed} RENAME TO {view.name};"
  | .commentOnTable table _ => r.undoCommentOnTable searchPath table
  | .commentOnColumn table column _ => r.undoCommentOnColumn searchPath table column
  | .commentOnView _ _ => .skipped
  | .unrecognized _ => .unsupported

/-- The reversals of several actions as one; it is complete if all of them are. -/
def combine (parts : List Reversal) : Reversal :=
  match parts.filterMap Reversal.script? with
  | [] => .skipped
  | texts =>
    let text := Text.join "\n" texts
    if parts.all Reversal.isComplete then .statement text else .manual text

/-- The reversal of a text; of chained actions the last is undone first. -/
def reverse (r : Reverser) (searchPath : Option String) (stmt : String) : Reversal :=
  match Sql.expandActions? stmt with
  | none => r.undo searchPath (Statement.ofText stmt)
  | some actions =>
    combine (actions.reverse.map fun action => r.undo searchPath (Statement.ofText action))

end Reverser

end Rollback
