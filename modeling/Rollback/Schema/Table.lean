import Rollback.Json.Printer
import Rollback.Schema.Distribution
import Rollback.Schema.StorageOptions

/-!
# Tables and views

What a catalog knows about a table, its columns and a view.

- `Table.columnsInOrder`: the columns as they were declared
- `Table.withColumn`: the table with one column changed, which is made up if it is not known
- `Table.withRecordedColumn`: the same for a table of a document, whose positions are words
- `View.append`: a view with one more statement in its definition
-/

set_option autoImplicit false

namespace Rollback

/-- A column of a table. -/
structure Column where
  name : String
  dataType : String
  comment : Option String
  /-- The position of the column in its table. -/
  ordinal : Nat
  defaultValue : Option Json.Value
  isPrimaryKey : Bool
  isUnique : Bool
  isAutoIncrement : Bool
deriving DecidableEq

/-- A table. -/
structure Table where
  name : String
  /-- The name with the schema, both in the letter case they were written in. -/
  fullName : String
  /-- The schema in lower case. -/
  schema : Option String
  /-- The columns by their names in lower case. -/
  columns : KeyMap Column
  /-- The files that mention the table, in the order in which they were read. -/
  sources : List String
  comment : Option String
  distribution : Option Distribution
  storage : Option StorageOptions
  /-- The group of nodes that holds the table. -/
  placementGroup : Option String
deriving DecidableEq

/-- A view. -/
structure View where
  name : String
  fullName : String
  schema : Option String
  /-- The statement that creates the view and the comments on it, as they were written. -/
  definition : String
  sources : List String
deriving DecidableEq

/-- The list of files with one more, unless it is in the list or has no name. -/
def addSource (path : String) (sources : List String) : List String :=
  if path.isEmpty || sources.contains path then sources else sources ++ [path]

/-- The data type of a column that is known by name only. -/
def unknownType : String := "UNKNOWN"

namespace Column

/-- A column of which only name, type and position are known. -/
def declared (name dataType : String) (ordinal : Nat) : Column :=
  ⟨name, dataType, none, ordinal, none, false, false, false⟩

/-- A column that is known by name only. -/
def stub (name : String) (ordinal : Nat) : Column :=
  declared name unknownType ordinal

/-- The clause that sets the default of a column; a text stands there without quotes. -/
def defaultClause (c : Column) : String :=
  match c.defaultValue with
  | none => ""
  | some .null => ""
  | some (.string s) => " DEFAULT " ++ s
  | some value => " DEFAULT " ++ value.compact

/-- The options of a column, with a space before each. -/
def optionClauses (c : Column) : String :=
  c.defaultClause ++ (if c.isPrimaryKey then " PRIMARY KEY" else "") ++
    (if c.isUnique then " UNIQUE" else "") ++
    if c.isAutoIncrement then " AUTO_INCREMENT" else ""

/-- Whether a column comes no later than another: by position and then by name. -/
def comesBefore (a b : Column) : Bool :=
  a.ordinal < b.ordinal || (a.ordinal == b.ordinal && a.name ≤ b.name)

end Column

namespace Table

/-- A table without columns. -/
def empty (name : ObjectName) : Table :=
  ⟨name.name, name.render, name.schema.map String.lowerCase, ∅, [], none, none, none, none⟩

/-- The name of a table with its schema, if that is known. -/
def objectName (t : Table) : ObjectName :=
  ⟨t.schema, t.name⟩

/-- The column with a name, in any letter case. -/
def column? (t : Table) (name : String) : Option Column :=
  t.columns.get? name.lowerCase

/-- The columns by position and name. -/
def columnsInOrder (t : Table) : List Column :=
  t.columns.values.mergeSort Column.comesBefore

/-- The first position after those of all columns. -/
def nextOrdinal (t : Table) : Nat :=
  (t.columns.values.map fun c => c.ordinal + 1).foldl max 0

/-- The same position where positions are words, as in a document: the last word is followed by
the first. -/
def nextRecordedOrdinal (t : Table) : Nat :=
  (t.columns.values.map fun c => (c.ordinal + 1) % Json.Value.wordCount).foldl max 0

/-- Counting in words makes no difference before the last word. -/
theorem nextRecordedOrdinal_eq_nextOrdinal (t : Table)
    (h : ∀ c ∈ t.columns.values, c.ordinal + 1 < Json.Value.wordCount) :
    t.nextRecordedOrdinal = t.nextOrdinal := by
  unfold nextRecordedOrdinal nextOrdinal
  rw [List.map_congr_left fun c hc => Nat.mod_eq_of_lt (h c hc)]

/-- The column with a name, or one that is known by name only and stands at some position. -/
def columnOrStub (t : Table) (name : String) (ordinal : Nat) : Column :=
  (t.column? name).getD (Column.stub name ordinal)

/-- The table with a column changed; one that is not there is made up first. -/
def withColumn (t : Table) (name : String) (change : Column → Column) : Table :=
  { t with columns :=
      t.columns.insert name.lowerCase (change (t.columnOrStub name t.nextOrdinal)) }

/-- A table of a document with a column that is made up if it is not there. -/
def withRecordedColumn (t : Table) (name : String) : Table :=
  { t with columns :=
      t.columns.insert name.lowerCase (t.columnOrStub name t.nextRecordedOrdinal) }

/-- The table with one more file that mentions it. -/
def withSource (t : Table) (path : String) : Table :=
  { t with sources := addSource path t.sources }

end Table

namespace View

/-- A view with a definition. -/
def defined (name : ObjectName) (definition : String) : View :=
  ⟨name.name, name.render, name.schema.map String.lowerCase, definition, []⟩

/-- The view with one more statement on a line of its own. -/
def append (v : View) (stmt : String) : View :=
  { v with definition := if v.definition.isEmpty then stmt else v.definition ++ "\n" ++ stmt }

/-- The view with one more file that mentions it. -/
def withSource (v : View) (path : String) : View :=
  { v with sources := addSource path v.sources }

end View

end Rollback
