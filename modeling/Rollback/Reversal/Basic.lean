import Rollback.Json.Value

/-!
# Reversals

What stands in a rollback script for a forward statement.

- `Reversal.script?`: the text in the script
- `Reversal.isComplete`: whether nothing is left to do by hand
- `softenCommentEnds`: a text that can stand inside a block comment
-/

set_option autoImplicit false

namespace Rollback

/-- What stands in a rollback script for a forward statement. -/
inductive Reversal where
  /-- Statements that undo the forward one. -/
  | statement (sql : String)
  /-- A marker that tells what is to be written by hand. -/
  | manual (text : String)
  /-- The kind of the forward statement is not known. -/
  | unsupported
  /-- The forward statement needs nothing to undo it. -/
  | skipped
deriving DecidableEq, Repr

/-- The text of a block comment. -/
def blockComment (text : String) : String :=
  "/* " ++ text ++ " */"

/-- The characters with a space inside each pair that would end a block comment. -/
def softenChars : List Char → List Char
  | '*' :: '/' :: rest => '*' :: ' ' :: '/' :: softenChars rest
  | c :: rest => c :: softenChars rest
  | [] => []

/-- The text with a space inside each pair of characters that would end a block comment. -/
def softenCommentEnds (text : String) : String :=
  String.ofList (softenChars text.toList)

namespace Reversal

/-- The marker for a statement of an unknown kind. -/
def unsupportedMarker : String :=
  blockComment "UNSUPPORTED: statement type cannot be reversed automatically, handle manually"

/-- A marker with a message for those who complete the script. -/
def marked (message : String) : Reversal :=
  manual (blockComment ("MANUAL: " ++ message))

/-- The text in the script, if there is one. -/
def script? : Reversal → Option String
  | statement sql => some sql
  | manual text => some text
  | unsupported => some unsupportedMarker
  | skipped => none

/-- Whether nothing is left to do by hand. -/
def isComplete : Reversal → Bool
  | statement _ => true
  | skipped => true
  | _ => false

/-- A reversal as an object. -/
def toJson : Reversal → Json.Value
  | statement sql => .object [("kind", .string "statement"), ("sql", .string sql)]
  | manual text => .object [("kind", .string "manual"), ("sql", .string text)]
  | unsupported => .object [("kind", .string "unsupported")]
  | skipped => .object [("kind", .string "skipped")]

end Reversal

end Rollback
