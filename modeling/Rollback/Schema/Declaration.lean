import Rollback.Schema.Distribution
import Rollback.Schema.StorageOptions
import Rollback.Sql.Grammar
import Rollback.Sql.Preview
import Rollback.Sql.TopLevel

/-!
# Declarations of tables

What a CREATE TABLE statement says: the columns in its body, and the clauses after the body. A
definition in the body that declares a constraint, or that does not start with a name and a type,
is passed over.

- `splitBody?`: the body of the statement and what follows it
- `columnOf?`: the name and the type that a definition declares
- `Declaration.ofChars`: all that a statement declares
-/

set_option autoImplicit false

namespace Rollback

namespace Sql

open Pattern

/-! ## Body -/

/--
The texts before and after the parenthesis that closes the body, where `body` holds the characters
read so far in reverse, `depth` counts the parentheses opened inside and `quote` is the open quote.
-/
def splitBodyFrom (quote : Option Char) (depth : Nat) (body : List Char) :
    List Char → Option (List Char × List Char)
  | [] => none
  | c :: rest =>
    match quote with
    | some q => splitBodyFrom (if c == q then none else some q) depth (c :: body) rest
    | none =>
      if isQuote c then splitBodyFrom (some c) depth (c :: body) rest
      else if c == '(' then splitBodyFrom none (depth + 1) (c :: body) rest
      else if c == ')' then
        match depth with
        | 0 => some (body.reverse, rest)
        | depth + 1 => splitBodyFrom none depth (c :: body) rest
      else splitBodyFrom none depth (c :: body) rest

/-- The texts before and after the parenthesis that closes the body. -/
def splitBody? (text : List Char) : Option (List Char × List Char) :=
  splitBodyFrom none 0 [] text

/-! ## Columns -/

/-- Words that start the declaration of a constraint. -/
def constraintWords : List String :=
  ["CONSTRAINT", "PRIMARY", "FOREIGN", "UNIQUE", "CHECK", "INDEX", "KEY", "LIKE", "EXCLUDE"]

/-- Characters of a column name. -/
def columnNameChar : CharSet := .union .word (.oneOf ['$'])

/-- A column name, in quotes or not, and the first word of a type with its arguments. -/
def columnPhrase : Phrase :=
  mark .quote (orNothing nameQuote) ++ mark .column (some1 columnNameChar) ++
    orNothing nameQuote ++ gap ++
    mark .dataType (char .letter ++ some0 columnNameChar ++ orNothing (gaps ++ parenthesized))

/-- One more word of a type with its arguments. -/
def typeWordPhrase : Phrase :=
  mark .dataType
    (gap ++
      firstOf
        (["PRECISION", "VARYING", "WITHOUT", "WITH", "TIME", "ZONE", "UNSIGNED"].map keyword) ++
      wordEdge ++ orNothing (gaps ++ parenthesized))

/-- The brackets of an array type. -/
def arrayPhrase : Phrase :=
  let brackets := literally '[' ++ gaps ++ literally ']'
  mark .dataType (gaps ++ brackets ++ many brackets)

/-- A type in upper case, without blanks before its arguments. -/
def normalizeType (raw : List Char) : List Char :=
  let name := (Text.upper raw).takeWhile (· != '(')
  match (Text.upper raw).dropWhile (· != '(') with
  | [] => name
  | arguments => Text.trimEnd name ++ arguments

/-- The words that a type goes on with, and what follows them; `fuel` bounds their number. -/
def typeWords : Nat → List Char → List (List Char) × List Char
  | 0, rest => ([], rest)
  | fuel + 1, rest =>
    match typeWordPhrase.match? rest with
    | none => ([], rest)
    | some m =>
      let (more, rest) := typeWords fuel m.rest
      (normalizeType (Text.trim (m.text .dataType)) :: more, rest)

/-- The brackets of an array type at the start of a text, without blanks. -/
def arraySuffix (rest : List Char) : List Char :=
  match arrayPhrase.match? rest with
  | none => []
  | some m => (Text.words (m.text .dataType)).flatten

/-- The name and the type that a definition declares. -/
def columnOf? (definition : List Char) : Option (String × String) := do
  let m ← columnPhrase.match? definition
  let name := m.text .column
  -- In quotes, such a word is a name like any other.
  if (m.text .quote).isEmpty && Text.isOneOf constraintWords name then none
  else
    let (words, rest) := typeWords m.rest.length m.rest
    let dataType :=
      [' '].intercalate (normalizeType (m.text .dataType) :: words) ++ arraySuffix rest
    return (String.ofList name, String.ofList dataType)

/-! ## Clauses -/

/-- Contents in parentheses. -/
def contentsPhrase (contents : Phrase) : Phrase :=
  gaps ++ literally '(' ++ mark .contents contents ++ literally ')'

/-- DISTRIBUTE BY HASH with its columns in parentheses. -/
def distributeByHashPhrase : Phrase :=
  wordEdge ++ keywords ["DISTRIBUTE", "BY", "HASH"] ++
    contentsPhrase (char inParentheses ++ stretch inParentheses)

/-- DISTRIBUTE BY ROUNDROBIN, which has no columns. -/
def distributeInTurnPhrase : Phrase :=
  wordEdge ++ keywords ["DISTRIBUTE", "BY", "ROUNDROBIN"] ++ wordEdge

/-- DISTRIBUTED BY with its columns in parentheses. -/
def distributedByPhrase : Phrase :=
  wordEdge ++ keywords ["DISTRIBUTED", "BY"] ++
    contentsPhrase (char inParentheses ++ stretch inParentheses)

/-- DISTRIBUTED RANDOMLY, which has no columns. -/
def distributedRandomlyPhrase : Phrase :=
  wordEdge ++ keywords ["DISTRIBUTED", "RANDOMLY"] ++ wordEdge

/-- WITH and its options in parentheses; the clause is kept as it is written. -/
def storagePhrase : Phrase :=
  mark .clause (wordEdge ++ keyword "WITH" ++ contentsPhrase (stretch inParentheses))

/-- TO GROUP with the name of a group, in quotes or not. -/
def placementPhrase : Phrase :=
  wordEdge ++ keywords ["TO", "GROUP"] ++ gap ++ orNothing nameQuote ++
    mark .target
      (some1 (.except (.union (.oneOf ['\x60', '\x22', ';']) .gap))) ++
    orNothing nameQuote

/-- The distribution that the clauses ask for; of several forms the first listed counts. -/
def distributionOf? (clauses : List Char) : Option Distribution :=
  let byHash (phrase : Phrase) : Option Distribution :=
    (phrase.search? clauses).map fun m => .byHash (columnList (m.text .contents))
  byHash distributeByHashPhrase
    <|> (distributeInTurnPhrase.search? clauses).map (fun _ => .inTurn)
    <|> byHash distributedByPhrase
    <|> (distributedRandomlyPhrase.search? clauses).map (fun _ => .atRandom)

/-- The storage options among the clauses. -/
def storageOf? (clauses : List Char) : Option StorageOptions :=
  (storagePhrase.search? clauses).map fun m =>
    StorageOptions.ofClause (m.text .clause) (m.text .contents)

/-- The group of nodes among the clauses. -/
def placementOf? (clauses : List Char) : Option String :=
  (placementPhrase.search? clauses).map fun m => String.ofList (m.text .target)

end Sql

/-- What a CREATE TABLE statement declares. -/
structure Declaration where
  /-- Names and types of the columns in their order. -/
  columns : List (String × String)
  distribution : Option Distribution
  storage : Option StorageOptions
  placementGroup : Option String

namespace Declaration

/-- The failure of a CREATE TABLE statement. -/
def malformed (reason : String) (stmt : List Char) : Failure :=
  .malformedStatement "create table" reason (Sql.preview (String.ofList stmt) Sql.previewLength)

/-- What a CREATE TABLE statement declares, or what is wrong with it. -/
def ofChars (stmt : List Char) : Except Failure Declaration :=
  match Sql.createTableBodyPhrase.match? stmt with
  | none => .error (malformed "no column list found" stmt)
  | some m =>
    match Sql.splitBody? m.rest with
    | none => .error (malformed "unbalanced parentheses" stmt)
    | some (body, clauses) =>
      .ok {
        columns := (Sql.topLevelParts .ignored body).filterMap Sql.columnOf?
        distribution := Sql.distributionOf? clauses
        storage := Sql.storageOf? clauses
        placementGroup := Sql.placementOf? clauses }

end Declaration

end Rollback
