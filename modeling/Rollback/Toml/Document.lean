import Rollback.Toml.Item
import Rollback.Toml.Scalar
import Rollback.Toml.Text

/-!
# Documents of TOML

Lines of keys with values, under headers that name tables.

- `Entries.ofText?`: the entries of a document
-/

set_option autoImplicit false

namespace Rollback.Toml

/-- The number of levels, of nested values or of parts of a key, that is too many. -/
def levelLimit : Nat := 80

/-! ## Keys -/

/-- A character of a key without quotes. -/
def isBareChar (c : Char) : Bool :=
  c.isAlphanum || c == '_' || c == '-'

/-- One part of a key. -/
def readKeyPart? (s : List Char) : Option (String × List Char) :=
  match s.takeWhile isBareChar with
  | [] => readLine? s
  | bare => some (String.ofList bare, s.drop bare.length)

/-- The parts of a key with dots between them; `fuel` bounds their number. -/
def readKeyParts? : Nat → List Char → Option (List String × List Char)
  | 0, _ => none
  | fuel + 1, s => do
    let (part, s) ← readKeyPart? (skipSpace s)
    match skipSpace s with
    | '.' :: rest =>
      let (parts, rest) ← readKeyParts? fuel rest
      return (part :: parts, rest)
    | rest => return ([part], rest)

/-- A key: the parts before its last one, and the last one. -/
def readKey? (s : List Char) : Option ((List String × String) × List Char) := do
  let (parts, rest) ← readKeyParts? (levelLimit - 1) s
  let last ← parts.getLast?
  return ((parts.dropLast, last), rest)

/-! ## Values -/

/-- What follows blanks, line ends and comments. -/
def skipLayout (inComment : Bool) : List Char → Option (List Char)
  | [] => some []
  | '\r' :: '\n' :: rest => skipLayout false rest
  | c :: rest =>
    if c == '\n' then skipLayout false rest
    else if inComment then if isInline c then skipLayout true rest else none
    else if isSpace c then skipLayout false rest
    else if c == '#' then skipLayout true rest
    else some (c :: rest)

/-- A word that is a value: a truth value, a number or a time. -/
def readWord? (s : List Char) : Option (Item × List Char) :=
  let word := s.takeWhile isWordChar
  let rest := s.drop word.length
  if word == ['t', 'r', 'u', 'e'] then some (.bool true, rest)
  else if word == ['f', 'a', 'l', 's', 'e'] then some (.bool false, rest)
  else if isNumber word then some (.number, rest)
  else if isDateTime word || isClock word then some (.time, rest)
  else (afterDay? s).map fun rest => (.time, rest)

mutual

/-- Reads a value; `fuel` bounds the steps and `levels` the nested values. -/
def readValue? (fuel levels : Nat) (s : List Char) : Option (Item × List Char) :=
  match fuel with
  | 0 => none
  | fuel + 1 =>
    match s with
    | [] => none
    | c :: rest =>
      if c == '\x22' || c == '\x27' then
        (readQuoted? s).map fun (text, rest) => (.string text, rest)
      else if c == '[' then
        if levels == 0 then none
        else (readItems? fuel (levels - 1) rest).map fun (items, rest) => (.array items, rest)
      else if c == '\x7b' then
        if levels == 0 then none
        else
          match skipSpace rest with
          | [] => none
          | d :: after =>
            if d == '\x7d' then some (.inline [], after)
            else
              (readPairs? fuel (levels - 1) [] rest).map fun (entries, rest) =>
                (.inline entries, rest)
      else readWord? s

/-- Reads the items of an array up to its closing bracket; a comma may stand after the last. -/
def readItems? (fuel levels : Nat) (s : List Char) : Option (List Item × List Char) :=
  match fuel with
  | 0 => none
  | fuel + 1 => do
    match ← skipLayout false s with
    | ']' :: rest => return ([], rest)
    | s =>
      let (item, s) ← readValue? fuel levels s
      match ← skipLayout false s with
      | ',' :: rest =>
        let (items, rest) ← readItems? fuel levels rest
        return (item :: items, rest)
      | ']' :: rest => return ([item], rest)
      | _ => none

/-- Reads the pairs of a table in braces after those that were read before. -/
def readPairs? (fuel levels : Nat) (entries : Entries) (s : List Char) :
    Option (Entries × List Char) :=
  match fuel with
  | 0 => none
  | fuel + 1 => do
    let ((path, key), s) ← readKey? s
    let (item, s) ← readValue? fuel levels (skipSpace (← after? '=' s))
    let entries ← insertDotted .header key item path entries
    match skipSpace s with
    | [] => none
    | c :: rest =>
      if c == ',' then readPairs? fuel levels entries rest
      else if c == '\x7d' then return (entries, rest)
      else none

end

/-! ## Lines -/

/-- What follows the rest of a line, which holds nothing but a comment. -/
def afterLine? (s : List Char) : Option (List Char) :=
  let rest := match skipSpace s with
    | '#' :: rest => rest.dropWhile isInline
    | rest => rest
  if rest.isEmpty then some [] else afterNewline? rest

/-- A line that says something. -/
inductive Line where
  /-- The header of a table. -/
  | table (path : List String) (key : String)
  /-- The header of an element of several tables. -/
  | element (path : List String) (key : String)
  | pair (path : List String) (key : String) (item : Item)

/-- Reads a line, up to the end of what it says. -/
def readLineBody? (s : List Char) : Option (Line × List Char) :=
  match s with
  | '[' :: '[' :: rest => do
    let ((path, key), rest) ← readKey? rest
    return (.element path key, ← after? ']' (← after? ']' rest))
  | '[' :: rest => do
    let ((path, key), rest) ← readKey? rest
    return (.table path key, ← after? ']' rest)
  | _ => do
    let ((path, key), rest) ← readKey? s
    let (item, rest) ← readValue? (s.length + 1) (levelLimit - 1) (skipSpace (← after? '=' rest))
    return (.pair path key item, rest)

/-- The lines of a document that say something; `fuel` bounds the number of lines. -/
def readLines? : Nat → List Char → Option (List Line)
  | 0, _ => none
  | fuel + 1, s =>
    match skipSpace s with
    | [] => some []
    | c :: rest =>
      if c == '#' || c == '\n' || c == '\r' then do
        readLines? fuel (← afterLine? (c :: rest))
      else do
        let (line, rest) ← readLineBody? (c :: rest)
        return line :: (← readLines? fuel (← afterLine? rest))

/-- A document that is being read: its entries, and the path of the table that pairs belong to. -/
structure OpenDocument where
  entries : Entries
  current : List String

/-- The document after one more line. -/
def OpenDocument.add (d : OpenDocument) : Line → Option OpenDocument
  | .table path key => do
    return ⟨← updateAt (openTable key) path d.entries, path ++ [key]⟩
  | .element path key => do
    return ⟨← updateAt (openElement key) path d.entries, path ++ [key]⟩
  | .pair path key item => do
    return { d with entries := ← updateAt (insertDotted .header key item path) d.current d.entries }

/-- The text without a byte order mark at its start. -/
def dropMark (s : List Char) : List Char :=
  match s with
  | c :: rest => if c.toNat == 0xFEFF then rest else s
  | [] => []

/-- The entries of a document. -/
def Entries.ofText? (text : String) : Option Entries := do
  let s := dropMark text.toList
  let lines ← readLines? (s.length + 1) s
  return (← lines.foldlM OpenDocument.add ⟨[], []⟩).entries

end Rollback.Toml
