import Rollback.Text.Blank
import Rollback.Text.Pieces

/-!
# Previews

A short form of a statement for messages and tables.
-/

set_option autoImplicit false

namespace Rollback.Sql

/-- The words of a text with single spaces between them. -/
def flatten (text : List Char) : List Char :=
  [' '].intercalate (Text.words text)

/-- The flattened text, cut after `max` characters and marked where it was cut. -/
def preview (text : String) (max : Nat) : String :=
  let flat := flatten text.toList
  if flat.length > max then String.ofList (flat.take max) ++ "..." else String.ofList flat

/-- The length of the previews that messages and reports show. -/
def previewLength : Nat := 80

end Rollback.Sql
