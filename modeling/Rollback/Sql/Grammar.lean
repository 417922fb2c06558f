import Rollback.Pattern.Basic

/-!
# Grammar of the recognized statements

One pattern for the start of each kind of statement. A pattern says nothing about the text after
it. Keywords are read in any ASCII case.
-/

set_option autoImplicit false

namespace Rollback.Sql

/-- The operands that the patterns mark. -/
inductive Operand where
  /-- The table, view or index that the statement is about. -/
  | object
  /-- A second object or name: a child, a new name, an indexed table. -/
  | target
  | column
  /-- The optional word COLUMN. -/
  | columnWord
  /-- The optional word UNIQUE. -/
  | uniqueWord
  | definition
  | partition
  | comment
  /-- The part of an ALTER TABLE statement before its actions. -/
  | head
  /-- A quote before an identifier. -/
  | quote
  /-- A data type or one more word of it. -/
  | dataType
  /-- A whole clause. -/
  | clause
  /-- What stands between the parentheses of a clause. -/
  | contents
deriving DecidableEq, Repr

/-- A pattern over SQL text. -/
abbrev Phrase := Pattern Operand

open Pattern

/-- A given character. -/
def literally (c : Char) : Phrase := char (.oneOf [c])

/-- A double quote or a backtick. -/
def nameQuote : Phrase := char (.oneOf ['\x60', '\x22'])

/-- An identifier; the quotes on its two sides are optional. -/
def identifier : Phrase :=
  orNothing nameQuote ++ some1 (.union .word (.oneOf ['$', '-'])) ++ orNothing nameQuote

/-- An identifier, with or without another one as its schema. -/
def qualifiedName : Phrase :=
  identifier ++ orNothing (literally '.' ++ identifier)

/-- An identifier with a table, and perhaps a schema, before it. -/
def columnPath : Phrase :=
  identifier ++ literally '.' ++ identifier ++ orNothing (literally '.' ++ identifier)

/-- Any text up to the next closing parenthesis. -/
def inParentheses : CharSet := .except (.oneOf [')'])

/-- A text in parentheses, up to the first closing one. -/
def parenthesized : Phrase :=
  literally '(' ++ stretch inParentheses ++ literally ')'

/-- A column definition up to the next comma or semicolon outside parentheses. -/
def columnDefinition : Phrase :=
  let plain := CharSet.except (.oneOf [',', ';', '('])
  some1 plain ++ many (parenthesized ++ some0 plain)

/-- A comment in single quotes, or NULL; doubled and escaped quotes belong to the comment. -/
def commentText : Phrase :=
  let plain := char (.except (.oneOf ['\x27', '\\']))
  let doubled := literally '\x27' ++ literally '\x27'
  let escaped := literally '\\' ++ char .any
  alt
    (literally '\x27' ++ mark .comment (many (firstOf [plain, doubled, escaped])) ++
      literally '\x27')
    (keyword "NULL")

/-- Keywords that may be left out, with a gap after them. -/
def maybe (words : List String) : Phrase :=
  orNothing (keywords words ++ gap)

/-- A qualified name as an operand. -/
def objectName (operand : Operand) : Phrase := mark operand qualifiedName

/-- The start of an ALTER TABLE statement that allows the given words before the table. -/
def alterTable (words : List String) : Phrase :=
  keywords ["ALTER", "TABLE"] ++ gap ++ maybe words ++ objectName .object ++ gap

/-- The word COLUMN, which may be left out. -/
def columnWord : Phrase :=
  orNothing (mark .columnWord (keyword "COLUMN" ++ gap))

/-- An optional definition after a column name. -/
def maybeDefinition : Phrase :=
  orNothing (gap ++ mark .definition columnDefinition)

/-- SET search_path up to the list of schemas. -/
def setSearchPathPhrase : Phrase :=
  keywords ["SET", "search_path"] ++ gaps ++ alt (literally '=') (keyword "TO")

/-- CREATE TABLE up to the name of the table, which is marked. -/
def createTablePhrase : Phrase :=
  keyword "CREATE" ++ gap ++
    orNothing (firstOf [keyword "TEMPORARY", keyword "TEMP", keyword "UNLOGGED"] ++ gap) ++
    keyword "TABLE" ++ gap ++ maybe ["IF", "NOT", "EXISTS"] ++ objectName .object

/-- CREATE TABLE up to the parenthesis that opens its body. -/
def createTableBodyPhrase : Phrase :=
  createTablePhrase ++ gaps ++ literally '('

/-- DROP TABLE up to the name of the table; what follows it is not read. -/
def dropTablePhrase : Phrase :=
  keywords ["DROP", "TABLE"] ++ gap ++ maybe ["IF", "EXISTS"] ++ objectName .object

/-- ADD PARTITION up to the bounds of the partition. -/
def addPartitionPhrase : Phrase :=
  alterTable ["ONLY"] ++ keywords ["ADD", "PARTITION"] ++ wordEdge ++ gaps ++
    orNothing (mark .partition identifier)

/-- ATTACH PARTITION up to the name of the partition. -/
def attachPartitionPhrase : Phrase :=
  alterTable ["ONLY"] ++ keywords ["ATTACH", "PARTITION"] ++ gap ++ objectName .target

/-- DETACH PARTITION up to the name of the partition. -/
def detachPartitionPhrase : Phrase :=
  alterTable ["ONLY"] ++ keywords ["DETACH", "PARTITION"] ++ gap ++ objectName .target

/-- ADD with or without COLUMN, up to the end of the column definition if there is one. -/
def addColumnPhrase : Phrase :=
  alterTable ["ONLY"] ++ keyword "ADD" ++ gap ++ columnWord ++ maybe ["IF", "NOT", "EXISTS"] ++
    mark .column identifier ++ maybeDefinition

/-- DROP with or without COLUMN, up to the name of the column. -/
def dropColumnPhrase : Phrase :=
  alterTable ["ONLY"] ++ keyword "DROP" ++ gap ++ columnWord ++ maybe ["IF", "EXISTS"] ++
    mark .column identifier

/-- MODIFY with or without COLUMN; no word may stand before the table here. -/
def modifyColumnPhrase : Phrase :=
  keywords ["ALTER", "TABLE"] ++ gap ++ objectName .object ++ gap ++ keyword "MODIFY" ++ gap ++
    columnWord ++ mark .column identifier ++ maybeDefinition

/-- RENAME TABLE with the old and the new name. -/
def renameTablePhrase : Phrase :=
  keywords ["RENAME", "TABLE"] ++ gap ++ objectName .object ++ gap ++ keyword "TO" ++ gap ++
    objectName .target

/-- RENAME COLUMN with the old and the new name of the column. -/
def renameColumnPhrase : Phrase :=
  alterTable ["IF", "EXISTS"] ++ keywords ["RENAME", "COLUMN"] ++ gap ++ mark .column identifier ++
    gap ++ keyword "TO" ++ gap ++ mark .target identifier

/-- RENAME without COLUMN, with the old and the new name of what is renamed. -/
def renameBarePhrase : Phrase :=
  alterTable ["IF", "EXISTS"] ++ keyword "RENAME" ++ gap ++ mark .column identifier ++ gap ++
    keyword "TO" ++ gap ++ mark .target identifier

/-- RENAME TO with the new name of the table. -/
def renameToPhrase : Phrase :=
  alterTable ["IF", "EXISTS"] ++ keywords ["RENAME", "TO"] ++ gap ++ objectName .target

/-- CREATE INDEX up to the indexed table. -/
def createIndexPhrase : Phrase :=
  keyword "CREATE" ++ gap ++ orNothing (mark .uniqueWord (keyword "UNIQUE" ++ gap)) ++
    keyword "INDEX" ++ gap ++ maybe ["CONCURRENTLY"] ++ maybe ["IF", "NOT", "EXISTS"] ++
    objectName .object ++ gap ++ keyword "ON" ++ gap ++ maybe ["ONLY"] ++ objectName .target

/-- DROP INDEX up to the name of the index. -/
def dropIndexPhrase : Phrase :=
  keywords ["DROP", "INDEX"] ++ gap ++ maybe ["CONCURRENTLY"] ++ maybe ["IF", "EXISTS"] ++
    objectName .object

/-- CREATE VIEW up to the word AS; a list of columns may stand between. -/
def createViewPhrase : Phrase :=
  keyword "CREATE" ++ gap ++ maybe ["OR", "REPLACE"] ++ keyword "VIEW" ++ gap ++
    objectName .object ++ orNothing (gaps ++ parenthesized) ++ gap ++ keyword "AS" ++ wordEdge

/-- DROP VIEW up to the name of the view. -/
def dropViewPhrase : Phrase :=
  keywords ["DROP", "VIEW"] ++ gap ++ maybe ["IF", "EXISTS"] ++ objectName .object

/-- ALTER VIEW with the new name of the view. -/
def renameViewPhrase : Phrase :=
  keywords ["ALTER", "VIEW"] ++ gap ++ maybe ["IF", "EXISTS"] ++ objectName .object ++ gap ++
    keywords ["RENAME", "TO"] ++ gap ++ objectName .target

/-- COMMENT ON TABLE with its comment. -/
def commentOnTablePhrase : Phrase :=
  keywords ["COMMENT", "ON", "TABLE"] ++ gap ++ objectName .object ++ gap ++ keyword "IS" ++ gap ++
    commentText

/-- COMMENT ON COLUMN with its comment; the path of the column is one operand. -/
def commentOnColumnPhrase : Phrase :=
  keywords ["COMMENT", "ON", "COLUMN"] ++ gap ++ mark .object columnPath ++ gap ++ keyword "IS" ++
    gap ++ commentText

/-- COMMENT ON VIEW with its comment. -/
def commentOnViewPhrase : Phrase :=
  keywords ["COMMENT", "ON", "VIEW"] ++ gap ++ objectName .object ++ gap ++ keyword "IS" ++ gap ++
    commentText

/-- An ALTER TABLE statement up to its first action; what precedes the action is marked. -/
def alterTableHeadPhrase : Phrase :=
  mark .head
    (keywords ["ALTER", "TABLE"] ++ gap ++
      orNothing (alt (keyword "ONLY" ++ gap) (keywords ["IF", "EXISTS"] ++ gap)) ++
        qualifiedName) ++
    gap

end Rollback.Sql
