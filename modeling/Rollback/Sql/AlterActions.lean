import Rollback.Sql.Grammar
import Rollback.Sql.TopLevel
import Rollback.Sql.Script

/-!
# Chained actions

One ALTER TABLE statement may hold several actions with commas between them. It stands for as many
statements, one for each action.

- `expandActions?`: the statements that a chained ALTER TABLE stands for
- `actions`: the statements of a script, with the chained ones expanded
-/

set_option autoImplicit false

namespace Rollback.Sql

/-- Words that an action of a chained statement may start with. -/
def actionWords : List String := ["ADD", "DROP", "MODIFY", "ALTER"]

/-- The text without blanks and then semicolons at its end. -/
def dropTerminators (text : List Char) : List Char :=
  Text.dropEndWhile (· == ';') (Text.trimEnd text)

/-- Whether a part of a statement starts with an action word. -/
def startsWithAction (part : List Char) : Bool :=
  (Text.words part).head?.any (Text.isOneOf actionWords)

/-- The parts of what follows the table name of an ALTER TABLE statement. -/
def actionParts (body : List Char) : List (List Char) :=
  topLevelParts .honoured (dropTerminators body)

/-- A statement with one action. -/
def singleAction (head part : List Char) : List Char :=
  head ++ ' ' :: part ++ [';']

/--
One statement for each action of a chained ALTER TABLE; nothing if the text is no such statement,
has fewer than two actions or has a part that does not start with an action word.
-/
def expandActionTexts? (stmt : List Char) : Option (List (List Char)) := do
  let m ← alterTableHeadPhrase.match? (Text.trim stmt)
  let parts := actionParts m.rest
  if parts.length < 2 || !parts.all startsWithAction then none
  else some (parts.map (singleAction (Text.trim (m.text .head))))

/-- One statement for each action of a chained ALTER TABLE. -/
def expandActions? (stmt : String) : Option (List String) :=
  (expandActionTexts? stmt.toList).map fun texts => texts.map String.ofList

/-- The statements of a script, with one statement for each chained action. -/
def actions (script : String) : List String :=
  (statements script).flatMap fun stmt => (expandActions? stmt).getD [stmt]

end Rollback.Sql
