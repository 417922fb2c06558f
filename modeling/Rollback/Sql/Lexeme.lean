import Rollback.Text.Blank

/-!
# Lexemes of SQL

What becomes of the characters of a script: plain code, part of a quoted literal, or comment. A
literal stands between single or double quotes; a backslash right before a quote keeps it from
ending the literal. Comments run from `/*` to `*/` and from `--` to the end of the line.

- `lexemes`: the script without the text of its comments
- `endMode`: what the script ends in
-/

set_option autoImplicit false

namespace Rollback.Sql

/-- What a character stands in. -/
inductive Mode where
  | code
  /-- A literal opened by `quote`; `escaping` tells whether a backslash came right before. -/
  | literal (quote : Char) (escaping : Bool)
  | blockComment
  | lineComment
deriving DecidableEq, Repr

/-- What is left of a script when the text of its comments is taken out. -/
inductive Lexeme where
  /-- A character of plain code. -/
  | code (c : Char)
  /-- A character of a literal, its quotes included. -/
  | literal (c : Char)
  /-- The end of a block comment. -/
  | blockEnd
  /-- The line feed that ends a line comment. -/
  | lineEnd
deriving DecidableEq, Repr

/-- A single or double quote, which opens a literal. -/
def opensLiteral (c : Char) : Bool :=
  c == '\x27' || c == '\x22'

/-- What follows a character of a literal. -/
def afterLiteral (quote : Char) (escaping : Bool) (c : Char) : Mode :=
  if c == quote && !escaping then .code else .literal quote (c == '\\')

/-- The lexemes of a text that is read in a given mode, and the mode it ends in. -/
def lex : Mode → List Char → List Lexeme × Mode
  | mode, [] => ([], mode)
  | .code, '/' :: '*' :: rest => lex .blockComment rest
  | .code, '-' :: '-' :: rest => lex .lineComment rest
  | .code, c :: rest =>
    if opensLiteral c then
      let (after, mode) := lex (.literal c false) rest
      (.literal c :: after, mode)
    else
      let (after, mode) := lex .code rest
      (.code c :: after, mode)
  -- Neither semicolons nor the marks of comments mean anything in a literal.
  | .literal quote escaping, c :: rest =>
    let (after, mode) := lex (afterLiteral quote escaping c) rest
    (.literal c :: after, mode)
  | .blockComment, '*' :: '/' :: rest =>
    let (after, mode) := lex .code rest
    (.blockEnd :: after, mode)
  | .blockComment, _ :: rest => lex .blockComment rest
  | .lineComment, c :: rest =>
    if c == '\n' then
      let (after, mode) := lex .code rest
      (.lineEnd :: after, mode)
    else lex .lineComment rest

/-- The lexemes of a script. -/
def lexemes (script : List Char) : List Lexeme :=
  (lex .code script).1

/-- What the end of a script stands in. -/
def endMode (script : List Char) : Mode :=
  (lex .code script).2

end Rollback.Sql
