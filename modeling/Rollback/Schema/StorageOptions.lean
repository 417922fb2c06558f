import Rollback.Schema.KeyMap
import Rollback.Text.Blank
import Rollback.Text.Pieces

/-!
# Storage options

The clause `WITH (key = value, …)` of a CREATE TABLE statement.
-/

set_option autoImplicit false

namespace Rollback

/-- A clause of storage options. -/
structure StorageOptions where
  /-- The clause as it was written. -/
  raw : String
  options : KeyMap String
deriving DecidableEq

namespace StorageOptions

/-- An option with its value; nothing without an equals sign or without a name. -/
def option? (part : List Char) : Option (String × String) := do
  let (key, value) ← Text.cutAtFirst '=' part
  let key := Text.trim key
  if key.isEmpty then none
  else return (String.ofList key, String.ofList (Text.trim value))

/-- The options given by a clause and by the text between its parentheses. -/
def ofClause (raw contents : List Char) : StorageOptions :=
  ⟨String.ofList (Text.trim raw),
    KeyMap.ofList ((Text.pieces ',' contents).filterMap option?)⟩

end StorageOptions

end Rollback
