import Rollback.Text.Blank
import Rollback.Text.Casing
import Rollback.Text.Pieces

/-!
# Object names

Names of tables, views and indexes, with an optional schema. A name keeps the letter case it was
written in; its key, in lower case, identifies the object.

- `ObjectName.ofText`: reads `name`, `schema.name` or a quoted form of either
- `ObjectName.key`: the key of the object
- `ObjectName.resolve`: the name as seen with a schema in effect
-/

set_option autoImplicit false

namespace Rollback

namespace Text

/-- A double quote or a backtick, which may stand around an identifier. -/
def isNameQuote (c : Char) : Bool :=
  c == '\x22' || c == '\x60'

/-- An identifier without blanks and quotes around it. -/
def unquote (s : List Char) : List Char :=
  dropAround isNameQuote (trim s)

end Text

/-- The name of an object in a database. -/
structure ObjectName where
  schema : Option String
  name : String
deriving DecidableEq, Repr, Inhabited

namespace ObjectName

/-- The name given by the last two of its parts, or by the only one. -/
def ofParts : List String → ObjectName
  | [] => ⟨none, ""⟩
  | [name] => ⟨none, name⟩
  | [schema, name] => ⟨some schema, name⟩
  | _ :: rest => ofParts rest

/-- Reads a name; of more than two parts separated by dots the last two count. -/
def ofChars (raw : List Char) : ObjectName :=
  ofParts ((Text.pieces '.' raw).map fun part => String.ofList (Text.unquote part))

/-- Reads a name from a text. -/
def ofText (raw : String) : ObjectName :=
  ofChars raw.toList

/-- The key of the named object: schema and name in lower case. -/
def key (n : ObjectName) : String :=
  match n.schema with
  | some schema => schema.lowerCase ++ "." ++ n.name.lowerCase
  | none => n.name.lowerCase

/-- The name with the schema in effect, if it has none of its own. -/
def resolve (n : ObjectName) (searchPath : Option String) : ObjectName :=
  match n.schema, searchPath with
  | none, some schema => ⟨some schema, n.name⟩
  | _, _ => n

/-- Another object in the same schema. -/
def withName (n : ObjectName) (name : String) : ObjectName :=
  { n with name }

/-- Whether the name has a schema. -/
def isQualified (n : ObjectName) : Bool :=
  n.schema.isSome

/-- The name as it is written in a statement. -/
def render (n : ObjectName) : String :=
  match n.schema with
  | some schema => schema ++ "." ++ n.name
  | none => n.name

instance : ToString ObjectName := ⟨render⟩

@[simp] theorem resolve_none (n : ObjectName) : n.resolve none = n := by
  cases n with
  | mk schema name => cases schema <;> rfl

@[simp] theorem resolve_of_qualified {n : ObjectName} (h : n.isQualified = true)
    (searchPath : Option String) : n.resolve searchPath = n := by
  cases n with
  | mk schema name =>
    cases schema with
    | none => simp [isQualified] at h
    | some schema => rfl

end ObjectName

end Rollback
