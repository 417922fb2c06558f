import Rollback.Json.Value
import Rollback.Sql.Statement

/-!
# Statements as JSON

The form in which reports show statements: an object with the kind and the operands.
-/

set_option autoImplicit false

namespace Rollback

open Json (Value)

/-- A name as an object with schema and name. -/
def ObjectName.toJson (n : ObjectName) : Value :=
  .object [("schema", Value.orNull .string n.schema), ("name", .string n.name)]

namespace Statement

/-- The tag of a kind of statement. -/
def tag : Statement → String
  | setSearchPath .. => "set_search_path"
  | createTable .. => "create_table"
  | dropTable .. => "drop_table"
  | addPartition .. => "add_partition"
  | attachPartition .. => "attach_partition"
  | detachPartition .. => "detach_partition"
  | addColumn .. => "add_column"
  | dropColumn .. => "drop_column"
  | modifyColumn .. => "modify_column"
  | renameTable .. => "rename_table"
  | renameColumn .. => "rename_column"
  | renameBare .. => "rename_bare"
  | renameTo .. => "rename_to"
  | createIndex .. => "create_index"
  | dropIndex .. => "drop_index"
  | createView .. => "create_view"
  | dropView .. => "drop_view"
  | renameView .. => "alter_view_rename_to"
  | commentOnTable .. => "comment_on_table"
  | commentOnColumn .. => "comment_on_column"
  | commentOnView .. => "comment_on_view"
  | unrecognized .. => "unrecognized"

/-- The operands of a statement by name. -/
def operands : Statement → List (String × Value)
  | setSearchPath schema => [("schema", .string schema)]
  | createTable name => [("name", name.toJson)]
  | dropTable name => [("name", name.toJson)]
  | addPartition table partition bounds =>
    [("table", table.toJson), ("partition", Value.orNull .string partition),
      ("bounds", Value.orNull .string bounds)]
  | attachPartition table child => [("table", table.toJson), ("child", child.toJson)]
  | detachPartition table child => [("table", table.toJson), ("child", child.toJson)]
  | addColumn table column definition columnWord =>
    [("table", table.toJson), ("column", .string column),
      ("definition", Value.orNull .string definition), ("column_keyword", .bool columnWord)]
  | dropColumn table column columnWord =>
    [("table", table.toJson), ("column", .string column), ("column_keyword", .bool columnWord)]
  | modifyColumn table column definition columnWord =>
    [("table", table.toJson), ("column", .string column),
      ("definition", Value.orNull .string definition), ("column_keyword", .bool columnWord)]
  | renameTable source target => [("from", source.toJson), ("to", target.toJson)]
  | renameColumn table source target =>
    [("table", table.toJson), ("from", .string source), ("to", .string target)]
  | renameBare table source target =>
    [("table", table.toJson), ("from", .string source), ("to", .string target)]
  | renameTo table target => [("table", table.toJson), ("to", target.toJson)]
  | createIndex name table unique =>
    [("name", name.toJson), ("table", table.toJson), ("unique", .bool unique)]
  | dropIndex name => [("name", name.toJson)]
  | createView name => [("name", name.toJson)]
  | dropView name => [("name", name.toJson)]
  | renameView view target => [("view", view.toJson), ("to", target.toJson)]
  | commentOnTable table comment =>
    [("table", table.toJson), ("comment", Value.orNull .string comment)]
  | commentOnColumn table column comment =>
    [("table", table.toJson), ("column", .string column),
      ("comment", Value.orNull .string comment)]
  | commentOnView view comment =>
    [("view", view.toJson), ("comment", Value.orNull .string comment)]
  | unrecognized preview => [("preview", .string preview)]

/-- A statement as an object. -/
def toJson (s : Statement) : Value :=
  .object (("kind", .string s.tag) :: s.operands)

end Statement

end Rollback
