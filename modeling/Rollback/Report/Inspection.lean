import Rollback.Schema.Encoding

/-!
# Inspection of catalogs

What a catalog holds: a summary, or one table or view.

- `inspect`: the summary, or the object of a name
-/

set_option autoImplicit false

namespace Rollback

open Json (Value)

/-- One line of a summary. -/
structure ObjectSummary where
  key : String
  fullName : String
  columns : Nat
  sources : Nat
  comment : Option String
deriving DecidableEq, Repr

/-- What a catalog holds, or one object of it. -/
inductive Inspection where
  | summary (metadata : Metadata) (tables views : List ObjectSummary)
  | table (key : String) (table : Table)
  | view (key : String) (view : View)

namespace ObjectSummary

/-- The line for a table. -/
def ofTable (key : String) (t : Table) : ObjectSummary :=
  ⟨key, t.fullName, t.columns.size, t.sources.length, t.comment⟩

/-- The line for a view, of which no columns are known. -/
def ofView (key : String) (v : View) : ObjectSummary :=
  ⟨key, v.fullName, 0, v.sources.length, none⟩

/-- A line as an object. -/
def toJson (s : ObjectSummary) : Value :=
  .object
    [("key", .string s.key), ("fullName", .string s.fullName), ("columns", .counter s.columns),
      ("sourceFiles", .counter s.sources), ("comment", .orNull .string s.comment)]

end ObjectSummary

namespace Inspection

/-- The summary of a catalog. -/
def ofCatalog (c : Catalog) : Inspection :=
  .summary c.metadata (c.tables.entries.map fun e => .ofTable e.1 e.2)
    (c.views.entries.map fun e => .ofView e.1 e.2)

/-- An inspection as an object. -/
def toJson : Inspection → Value
  | summary metadata tables views =>
    .object
      [("type", .string "summary"), ("metadata", metadata.toJson),
        ("tables", .array (tables.map ObjectSummary.toJson)),
        ("views", .array (views.map ObjectSummary.toJson))]
  | table key t => .object [("type", .string "table"), ("key", .string key), ("table", t.toJson)]
  | view key v => .object [("type", .string "view"), ("key", .string key), ("view", v.toJson)]

end Inspection

/-- The table or view of a name; a table goes before a view. -/
def inspectObject (c : Catalog) (raw : String) : Except Failure Inspection :=
  let name := ObjectName.ofText raw
  match c.table? name none, c.view? name none with
  | some t, _ => .ok (.table name.key t)
  | none, some v => .ok (.view name.key v)
  | none, none => .error (.unknownObject raw)

/-- What a catalog holds, or the object of a name. -/
def inspect (c : Catalog) (name : Option String) : Except Failure Inspection :=
  match name with
  | none => .ok (.ofCatalog c)
  | some raw => inspectObject c raw

end Rollback
