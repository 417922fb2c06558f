import Rollback.Sql.AlterActions
import Rollback.Sql.Preview
import Rollback.Sql.Statement

/-!
# Recognition of statements

A statement is recognized by the first rule that accepts it. A rule reads the pattern of its kind at
the start of the statement and may refuse a match for what it marked.

- `rules`: the rules in the order in which they are tried
- `Statement.ofText`: the statement that a text stands for
-/

set_option autoImplicit false

namespace Rollback.Sql

/-- Words that introduce a clause of a table where a column name could stand. -/
def clauseWords : List String :=
  ["PARTITION", "CONSTRAINT", "PRIMARY", "FOREIGN", "UNIQUE", "CHECK", "INDEX", "KEY"]

/-- The object named by an operand. -/
def objectAt (m : Match Operand) (operand : Operand) : ObjectName :=
  ObjectName.ofChars (m.text operand)

/-- The identifier of an operand without its quotes. -/
def identifierAt (m : Match Operand) (operand : Operand) : List Char :=
  Text.unquote (m.text operand)

/-- A text without blanks around it, if anything is left of it. -/
def clause? (text : List Char) : Option (List Char) :=
  let trimmed := Text.trim text
  if trimmed.isEmpty then none else some trimmed

/-- The text of an operand without blanks around it, if anything is left of it. -/
def clauseAt? (m : Match Operand) (operand : Operand) : Option (List Char) :=
  (m.text? operand).bind clause?

/-- The comment between the quotes, as it is written. -/
def commentAt? (m : Match Operand) : Option String :=
  (m.text? .comment).map String.ofList

/-- Whether an operand was read. -/
def isMarked (m : Match Operand) (operand : Operand) : Bool :=
  (m.text? operand).isSome

/-- Whether more than one action follows the table name. -/
def chainsActions (m : Match Operand) : Bool :=
  (actionParts ((m.after? .object).getD [])).length > 1

/-- The schemas of a search path without quotes and blanks. -/
def schemasOf (list : List Char) : List (List Char) :=
  (Text.pieces ',' list).map fun schema =>
    Text.trim (Text.dropAround (· == '\x27') (Text.unquote schema))

/-- The rest of a statement up to its semicolon, after which there may be gaps only. -/
def beforeSemicolon? (rest : List Char) : Option (List Char) :=
  if ((rest.dropWhile (· != ';')).drop 1).all Text.isGap then some (rest.takeWhile (· != ';'))
  else none

/-- The first schema of a search path counts, apart from the placeholder for the user's own. -/
def setSearchPath? (stmt : List Char) : Option Statement := do
  let m ← setSearchPathPhrase.match? stmt
  let schema ← (schemasOf (← beforeSemicolon? m.rest)).find? fun schema =>
    !schema.isEmpty && !Text.eqIgnoringCase schema "$user".toList
  return .setSearchPath (String.ofList schema)

/-- Only the name is taken here; the body is read when the statement is applied. -/
def createTable? (stmt : List Char) : Option Statement := do
  let m ← createTablePhrase.match? stmt
  return .createTable (objectAt m .object)

/-- The first table is the operand, whatever follows it. -/
def dropTable? (stmt : List Char) : Option Statement := do
  let m ← dropTablePhrase.match? stmt
  return .dropTable (objectAt m .object)

/-- The rest of a statement without one semicolon at its end. -/
def withoutSemicolon (rest : List Char) : List Char :=
  match rest.reverse.dropWhile Text.isGap with
  | ';' :: before => before.reverse
  | before => before.reverse

/-- In place of a name, the words VALUES and FOR start the bounds of a nameless partition. -/
def addPartition? (stmt : List Char) : Option Statement := do
  let m ← addPartitionPhrase.match? stmt
  let table := objectAt m .object
  let name := identifierAt m .partition
  let bounds := clause? (withoutSemicolon m.rest)
  if name.isEmpty then
    return .addPartition table none (bounds.map String.ofList)
  else if Text.isOneOf ["VALUES", "FOR"] name then
    let word := m.text .partition
    let bounds := match bounds with
      | some rest => word ++ ' ' :: rest
      | none => word
    return .addPartition table none (some (String.ofList bounds))
  else
    return .addPartition table (some (String.ofList name)) (bounds.map String.ofList)

/-- The partition that is attached is the second operand. -/
def attachPartition? (stmt : List Char) : Option Statement := do
  let m ← attachPartitionPhrase.match? stmt
  return .attachPartition (objectAt m .object) (objectAt m .target)

/-- The partition that is detached is the second operand. -/
def detachPartition? (stmt : List Char) : Option Statement := do
  let m ← detachPartitionPhrase.match? stmt
  return .detachPartition (objectAt m .object) (objectAt m .target)

/-- A statement with several actions, or one about another clause than a column, is refused. -/
def addColumn? (stmt : List Char) : Option Statement := do
  let m ← addColumnPhrase.match? stmt
  let column := identifierAt m .column
  if chainsActions m || Text.isOneOf clauseWords column then none
  else
    return .addColumn (objectAt m .object) (String.ofList column)
      ((clauseAt? m .definition).map String.ofList) (isMarked m .columnWord)

/-- A statement with several actions, or one about another clause than a column, is refused. -/
def dropColumn? (stmt : List Char) : Option Statement := do
  let m ← dropColumnPhrase.match? stmt
  let column := identifierAt m .column
  if chainsActions m || Text.isOneOf clauseWords column then none
  else
    return .dropColumn (objectAt m .object) (String.ofList column) (isMarked m .columnWord)

/-- A statement with several actions is refused. -/
def modifyColumn? (stmt : List Char) : Option Statement := do
  let m ← modifyColumnPhrase.match? stmt
  if chainsActions m then none
  else
    return .modifyColumn (objectAt m .object) (String.ofList (identifierAt m .column))
      ((clauseAt? m .definition).map String.ofList) (isMarked m .columnWord)

/-- Both names are taken with their schemas. -/
def renameTable? (stmt : List Char) : Option Statement := do
  let m ← renameTablePhrase.match? stmt
  return .renameTable (objectAt m .object) (objectAt m .target)

/-- The names of the column are taken without their quotes. -/
def renameColumn? (stmt : List Char) : Option Statement := do
  let m ← renameColumnPhrase.match? stmt
  return .renameColumn (objectAt m .object) (String.ofList (identifierAt m .column))
    (String.ofList (identifierAt m .target))

/-- The word TO, or one that starts another clause, is not the name of what is renamed. -/
def renameBare? (stmt : List Char) : Option Statement := do
  let m ← renameBarePhrase.match? stmt
  let source := identifierAt m .column
  if Text.isOneOf ("TO" :: clauseWords) source then none
  else
    return .renameBare (objectAt m .object) (String.ofList source)
      (String.ofList (identifierAt m .target))

/-- The new name is taken with its schema, if one is written. -/
def renameTo? (stmt : List Char) : Option Statement := do
  let m ← renameToPhrase.match? stmt
  return .renameTo (objectAt m .object) (objectAt m .target)

/-- The columns of an index are not taken. -/
def createIndex? (stmt : List Char) : Option Statement := do
  let m ← createIndexPhrase.match? stmt
  return .createIndex (objectAt m .object) (objectAt m .target) (isMarked m .uniqueWord)

/-- The index that is dropped, without the table it was on. -/
def dropIndex? (stmt : List Char) : Option Statement := do
  let m ← dropIndexPhrase.match? stmt
  return .dropIndex (objectAt m .object)

/-- Only the name is taken; the whole statement is the definition of the view. -/
def createView? (stmt : List Char) : Option Statement := do
  let m ← createViewPhrase.match? stmt
  return .createView (objectAt m .object)

/-- The first view is the operand, whatever follows it. -/
def dropView? (stmt : List Char) : Option Statement := do
  let m ← dropViewPhrase.match? stmt
  return .dropView (objectAt m .object)

/-- The view is the first operand and its new name the second. -/
def renameView? (stmt : List Char) : Option Statement := do
  let m ← renameViewPhrase.match? stmt
  return .renameView (objectAt m .object) (objectAt m .target)

/-- The comment is absent for NULL. -/
def commentOnTable? (stmt : List Char) : Option Statement := do
  let m ← commentOnTablePhrase.match? stmt
  return .commentOnTable (objectAt m .object) (commentAt? m)

/-- The last part of the path is the column. -/
def commentOnColumn? (stmt : List Char) : Option Statement := do
  let m ← commentOnColumnPhrase.match? stmt
  let (table, column) ← Text.cutAtLast '.' (m.text .object)
  return .commentOnColumn (ObjectName.ofChars table) (String.ofList (Text.unquote column))
    (commentAt? m)

/-- The comment is absent for NULL. -/
def commentOnView? (stmt : List Char) : Option Statement := do
  let m ← commentOnViewPhrase.match? stmt
  return .commentOnView (objectAt m .object) (commentAt? m)

/-- The rules in the order in which they are tried; a special one stands before a general one. -/
def rules : List (List Char → Option Statement) :=
  [setSearchPath?, createTable?, dropTable?, addPartition?, attachPartition?, detachPartition?,
    addColumn?, dropColumn?, modifyColumn?, renameTable?, renameColumn?, renameBare?, renameTo?,
    createIndex?, dropIndex?, createView?, dropView?, renameView?, commentOnTable?,
    commentOnColumn?, commentOnView?]

end Rollback.Sql

namespace Rollback

namespace Statement

/-- The statement that the characters stand for. -/
def ofChars (text : List Char) : Statement :=
  let trimmed := Text.trim text
  (Sql.rules.findSome? fun rule => rule trimmed).getD
    (.unrecognized (Sql.preview (String.ofList trimmed) Sql.previewLength))

/-- The statement that a text stands for. -/
def ofText (text : String) : Statement :=
  ofChars text.toList

/-- The search path in effect after a statement: a new one in lower case, or the one before. -/
def searchPathAfter (searchPath : Option String) : Statement → Option String
  | setSearchPath schema => some schema.lowerCase
  | _ => searchPath

end Statement

end Rollback
