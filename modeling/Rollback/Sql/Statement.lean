import Rollback.Sql.Name

/-!
# Statements

The forward statements that are told apart, each with the operands that a rollback or a catalog
needs, and everything else.
-/

set_option autoImplicit false

namespace Rollback

/-- A forward statement and its operands. -/
inductive Statement where
  | setSearchPath (schema : String)
  | createTable (name : ObjectName)
  | dropTable (name : ObjectName)
  /-- A partition that may lack a name; `bounds` is the text after the name. -/
  | addPartition (table : ObjectName) (partition : Option String) (bounds : Option String)
  | attachPartition (table child : ObjectName)
  | detachPartition (table child : ObjectName)
  /-- `columnWord` tells whether the optional word COLUMN was written. -/
  | addColumn (table : ObjectName) (column : String) (definition : Option String)
      (columnWord : Bool)
  | dropColumn (table : ObjectName) (column : String) (columnWord : Bool)
  | modifyColumn (table : ObjectName) (column : String) (definition : Option String)
      (columnWord : Bool)
  | renameTable (source target : ObjectName)
  | renameColumn (table : ObjectName) (source target : String)
  /-- A renaming that does not say what is renamed. -/
  | renameBare (table : ObjectName) (source target : String)
  | renameTo (table target : ObjectName)
  | createIndex (name table : ObjectName) (unique : Bool)
  | dropIndex (name : ObjectName)
  | createView (name : ObjectName)
  | dropView (name : ObjectName)
  | renameView (view target : ObjectName)
  /-- The comment is absent when it is set to NULL. -/
  | commentOnTable (table : ObjectName) (comment : Option String)
  | commentOnColumn (table : ObjectName) (column : String) (comment : Option String)
  | commentOnView (view : ObjectName) (comment : Option String)
  /-- Any other statement, shortened. -/
  | unrecognized (preview : String)
deriving DecidableEq, Repr

namespace Statement

/-- The name of the kind of statement. -/
def kind : Statement → String
  | setSearchPath .. => "set search_path"
  | createTable .. => "create table"
  | dropTable .. => "drop table"
  | addPartition .. => "add partition"
  | attachPartition .. => "attach partition"
  | detachPartition .. => "detach partition"
  | addColumn .. => "add column"
  | dropColumn .. => "drop column"
  | modifyColumn .. => "modify column"
  | renameTable .. => "rename table"
  | renameColumn .. => "rename column"
  | renameBare .. => "rename"
  | renameTo .. => "rename to"
  | createIndex .. => "create index"
  | dropIndex .. => "drop index"
  | createView .. => "create view"
  | dropView .. => "drop view"
  | renameView .. => "alter view rename to"
  | commentOnTable .. => "comment on table"
  | commentOnColumn .. => "comment on column"
  | commentOnView .. => "comment on view"
  | unrecognized .. => "unrecognized"

/-- Whether the statement is one of the kinds told apart. -/
def isRecognized : Statement → Bool
  | unrecognized .. => false
  | _ => true

/-- Whether the statement comments on an object. -/
def isComment : Statement → Bool
  | commentOnTable .. => true
  | commentOnColumn .. => true
  | commentOnView .. => true
  | _ => false

/-- The head of the statement in a uniform spelling. -/
def summary : Statement → String
  | setSearchPath schema => s!"SET search_path = {schema}"
  | createTable name => s!"CREATE TABLE {name}"
  | dropTable name => s!"DROP TABLE {name}"
  | addPartition table (some partition) _ => s!"ALTER TABLE {table} ADD PARTITION {partition}"
  | addPartition table none _ => s!"ALTER TABLE {table} ADD PARTITION"
  | attachPartition table child => s!"ALTER TABLE {table} ATTACH PARTITION {child}"
  | detachPartition table child => s!"ALTER TABLE {table} DETACH PARTITION {child}"
  | addColumn table column _ _ => s!"ALTER TABLE {table} ADD COLUMN {column}"
  | dropColumn table column _ => s!"ALTER TABLE {table} DROP COLUMN {column}"
  | modifyColumn table column _ _ => s!"ALTER TABLE {table} MODIFY COLUMN {column}"
  | renameTable source target => s!"RENAME TABLE {source} TO {target}"
  | renameColumn table source target => s!"ALTER TABLE {table} RENAME COLUMN {source} TO {target}"
  | renameBare table source target => s!"ALTER TABLE {table} RENAME {source} TO {target}"
  | renameTo table target => s!"ALTER TABLE {table} RENAME TO {target}"
  | createIndex name table unique =>
    let word := if unique then "UNIQUE " else ""
    s!"CREATE {word}INDEX {name} ON {table}"
  | dropIndex name => s!"DROP INDEX {name}"
  | createView name => s!"CREATE VIEW {name}"
  | dropView name => s!"DROP VIEW {name}"
  | renameView view target => s!"ALTER VIEW {view} RENAME TO {target}"
  | commentOnTable table _ => s!"COMMENT ON TABLE {table}"
  | commentOnColumn table column _ => s!"COMMENT ON COLUMN {table}.{column}"
  | commentOnView view _ => s!"COMMENT ON VIEW {view}"
  | unrecognized preview => preview

end Statement

end Rollback
