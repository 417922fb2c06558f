import Rollback.Sql.Lexeme

/-!
# Scripts

A script is a sequence of statements. A semicolon in plain code ends a statement and belongs to it.
Comments are left out: a block comment leaves a space between the texts around it, a line comment
its line feed.

- `statements`: the statements of a script, without those that hold nothing but blanks
-/

set_option autoImplicit false

namespace Rollback.Sql

/-- The semicolon that ends a statement. -/
def Lexeme.isTerminator (l : Lexeme) : Bool :=
  l == .code ';'

/-- The parts of a script up to and including each terminator, and what is left after the last. -/
def segmentsFrom (segment : List Lexeme) : List Lexeme → List (List Lexeme)
  | [] => [segment.reverse]
  | l :: rest =>
    if l.isTerminator then (l :: segment).reverse :: segmentsFrom [] rest
    else segmentsFrom (l :: segment) rest

/-- The text read so far, in reverse, with one more lexeme. -/
def extendText (text : List Char) : Lexeme → List Char
  | .code c => c :: text
  | .literal c => c :: text
  | .lineEnd => '\n' :: text
  | .blockEnd =>
    -- A space keeps the texts on both sides of the comment apart.
    match text with
    | [] => []
    | c :: _ => if Text.isBlank c then text else ' ' :: text

/-- The text of a part of a script. -/
def segmentText (segment : List Lexeme) : List Char :=
  (segment.foldl extendText []).reverse

/-- Whether a text is more than blanks with semicolons after them. -/
def isSubstantial (text : List Char) : Bool :=
  !(Text.trim (Text.dropEndWhile (· == ';') text)).isEmpty

/-- The statements of a script, given by their characters. -/
def statementTexts (script : List Char) : List (List Char) :=
  ((segmentsFrom [] (lexemes script)).map fun segment => Text.trim (segmentText segment)).filter
    isSubstantial

/-- The statements of a script. -/
def statements (script : String) : List String :=
  (statementTexts script.toList).map String.ofList

end Rollback.Sql
