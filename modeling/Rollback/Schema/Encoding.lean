import Rollback.Schema.Catalog

/-!
# Catalogs as JSON

The document in which a catalog is kept. Fields stand in the order of their declaration; most of
those that say nothing are left out.

- `Catalog.document`: the document of a catalog
-/

set_option autoImplicit false

namespace Rollback

open Json (Value)

/-- A field, unless its value is absent. -/
def fieldIf {α : Type} (name : String) (encode : α → Value) : Option α → List (String × Value)
  | none => []
  | some a => [(name, encode a)]

/-- A field, if it is true. -/
def fieldIfTrue (name : String) (b : Bool) : List (String × Value) :=
  if b then [(name, .bool true)] else []

/-- A map as an object. -/
def KeyMap.toJson {α : Type} (encode : α → Value) (m : KeyMap α) : Value :=
  .object (m.entries.map fun e => (e.1, encode e.2))

/-- A distribution as an object, with its columns even if there are none. -/
def Distribution.toJson (d : Distribution) : Value :=
  .object [("type", .string d.kind.name), ("columns", .strings d.columns)]

/-- Storage options as an object, with the clause as it was written. -/
def StorageOptions.toJson (s : StorageOptions) : Value :=
  .object [("raw", .string s.raw), ("options", s.options.toJson .string)]

/-- A column as an object; an absent comment or default and a false flag are left out. -/
def Column.toJson (c : Column) : Value :=
  .object <|
    [("name", .string c.name), ("type", .string c.dataType)] ++
      fieldIf "comment" .string c.comment ++ [("ordinal", .counter c.ordinal)] ++
      fieldIf "default" (·) c.defaultValue ++ fieldIfTrue "primaryKey" c.isPrimaryKey ++
      fieldIfTrue "unique" c.isUnique ++ fieldIfTrue "autoIncrement" c.isAutoIncrement

/-- The fields of a table. -/
def Table.fields (t : Table) : List (String × Value) :=
  [("name", .string t.name), ("fullName", .string t.fullName),
      ("schema", .orNull .string t.schema), ("columns", t.columns.toJson Column.toJson),
      ("sourceFiles", .strings t.sources)] ++
    fieldIf "comment" .string t.comment ++
    fieldIf "distribution" Distribution.toJson t.distribution ++
    fieldIf "withClause" StorageOptions.toJson t.storage ++
    fieldIf "toGroup" .string t.placementGroup

/-- A table as an object. -/
def Table.toJson (t : Table) : Value := .object t.fields

/-- The fields of a view. -/
def View.fields (v : View) : List (String × Value) :=
  [("name", .string v.name), ("fullName", .string v.fullName),
    ("schema", .orNull .string v.schema), ("definition", .string v.definition),
    ("sourceFiles", .strings v.sources)]

/-- A view as an object. -/
def View.toJson (v : View) : Value := .object v.fields

/-- Metadata as an object; an absent time is null. -/
def Metadata.toJson (m : Metadata) : Value :=
  .object
    [("parsedAt", .orNull (fun t => .string t.text) m.parsedAt),
      ("totalFiles", .counter m.totalFiles), ("totalTables", .counter m.totalTables),
      ("totalViews", .counter m.totalViews), ("totalColumns", .counter m.totalColumns),
      ("checksums", m.checksums.toJson fun checksum => .counter checksum.toNat)]

/-- A catalog as an object, with its tables and views under their keys. -/
def Catalog.toJson (c : Catalog) : Value :=
  .object
    [("tables", c.tables.toJson Table.toJson), ("views", c.views.toJson View.toJson),
      ("metadata", c.metadata.toJson)]

/-- The document of a catalog. -/
def Catalog.document (c : Catalog) : String :=
  c.toJson.pretty

end Rollback
