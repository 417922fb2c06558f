import Rollback.Schema.Table
import Rollback.Time.Instant

/-!
# Catalogs

All that is known about the tables and views of a database, by the keys of their names.

- `Catalog.table?`, `Catalog.view?`: the object that a name stands for
- `Catalog.updateTable`, `Catalog.updateView`: a change of one object
- `Catalog.stamped`: the catalog with its totals and a time
-/

set_option autoImplicit false

namespace Rollback

/-- Where a catalog comes from and how large it is. -/
structure Metadata where
  parsedAt : Option Instant
  totalFiles : Nat
  totalTables : Nat
  totalViews : Nat
  totalColumns : Nat
  /-- The checksums of the files that the catalog was made from. -/
  checksums : KeyMap UInt32
deriving DecidableEq

/-- Metadata of a catalog that was made from nothing. -/
def Metadata.empty : Metadata := ⟨none, 0, 0, 0, 0, ∅⟩

/-- What is known about a database. -/
structure Catalog where
  tables : KeyMap Table
  views : KeyMap View
  metadata : Metadata
deriving DecidableEq

/-- The value for a name as seen with a schema in effect: in that schema, or else without one. -/
def KeyMap.resolve? {α : Type} (m : KeyMap α) (name : ObjectName) (searchPath : Option String) :
    Option α :=
  m.get? (name.resolve searchPath).key <|> m.get? name.key

namespace Catalog

/-- The catalog that knows nothing. -/
def empty : Catalog := ⟨∅, ∅, .empty⟩

instance : Inhabited Catalog := ⟨empty⟩

/-- The table that a name stands for. -/
def table? (c : Catalog) (name : ObjectName) (searchPath : Option String) : Option Table :=
  c.tables.resolve? name searchPath

/-- The view that a name stands for. -/
def view? (c : Catalog) (name : ObjectName) (searchPath : Option String) : Option View :=
  c.views.resolve? name searchPath

/-- The table with exactly this name, or an empty one. -/
def tableOrEmpty (c : Catalog) (name : ObjectName) : Table :=
  (c.tables.get? name.key).getD (Table.empty name)

/-- The view with exactly this name, or one with the given definition. -/
def viewOrDefined (c : Catalog) (name : ObjectName) (definition : String) : View :=
  (c.views.get? name.key).getD (View.defined name definition)

/-- The catalog with the table of exactly this name changed; a missing one is empty before. -/
def updateTable (c : Catalog) (name : ObjectName) (change : Table → Table) : Catalog :=
  { c with tables := c.tables.insert name.key (change (c.tableOrEmpty name)) }

/-- The catalog with the view of exactly this name changed; a missing one is defined before. -/
def updateView (c : Catalog) (name : ObjectName) (definition : String) (change : View → View) :
    Catalog :=
  { c with views := c.views.insert name.key (change (c.viewOrDefined name definition)) }

/-- The number of columns of all tables. -/
def columnCount (c : Catalog) : Nat :=
  (c.tables.values.map fun t => t.columns.size).foldr (· + ·) 0

/-- The catalog with a checksum of a file. -/
def withChecksum (c : Catalog) (path : String) (checksum : UInt32) : Catalog :=
  { c with metadata.checksums := c.metadata.checksums.insert path checksum }

/-- The catalog with its totals and the time at which it was made. -/
def stamped (c : Catalog) (files : Nat) (time : Option Instant) : Catalog :=
  { c with
    metadata :=
      ⟨time, files, c.tables.size, c.views.size, c.columnCount, c.metadata.checksums⟩ }

end Catalog

end Rollback
