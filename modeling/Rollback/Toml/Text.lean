import Rollback.Json.Node

/-!
# Texts of TOML

Quoted texts on one line or over several, with escapes or without.

- `readBasic`, `readLiteral`: a text on one line, with escapes and without
- `readBasicLines`, `readLiteralLines`: a text over several lines, with escapes and without
-/

set_option autoImplicit false

namespace Rollback.Toml

/-- A space or a tab. -/
def isSpace (c : Char) : Bool :=
  c == ' ' || c == '\t'

/-- A character that may stand anywhere on a line: no control character but the tab. -/
def isInline (c : Char) : Bool :=
  c == '\t' || (0x20 ≤ c.toNat && c.toNat != 0x7F)

/-- The text after spaces and tabs. -/
def skipSpace (s : List Char) : List Char :=
  s.dropWhile isSpace

/-- What follows the end of a line. -/
def afterNewline? : List Char → Option (List Char)
  | '\n' :: rest => some rest
  | '\r' :: '\n' :: rest => some rest
  | _ => none

/-- The text without a line end at its start. -/
def skipNewline (s : List Char) : List Char :=
  (afterNewline? s).getD s

/-- The character with a number given by hexadecimal digits. -/
def hexChar? (digits : List Char) : Option Char := do
  let values ← digits.mapM Json.hexDigit?
  let n := values.foldl (fun n d => 16 * n + d) 0
  if n < 0xD800 || (0xDFFF < n && n < 0x110000) then some (Char.ofNat n) else none

/-- The character that a one-letter escape stands for. -/
def shortEscape? (c : Char) : Option Char :=
  if c == '\x22' || c == '\\' then some c
  else if c == 'b' then some '\x08'
  else if c == 't' then some '\t'
  else if c == 'n' then some '\n'
  else if c == 'f' then some '\x0c'
  else if c == 'r' then some '\r'
  else none

/-- A character before what was read after it. -/
def prepend (c : Char) (read : Option (List Char × List Char)) : Option (List Char × List Char) :=
  read.map fun (text, rest) => (c :: text, rest)

/-- The rest of a text with escapes, up to its closing double quote. -/
def readBasic : List Char → Option (List Char × List Char)
  | [] => none
  | '\\' :: 'u' :: a :: b :: c :: d :: rest => do
    prepend (← hexChar? [a, b, c, d]) (readBasic rest)
  | '\\' :: 'U' :: a :: b :: c :: d :: e :: f :: g :: h :: rest => do
    prepend (← hexChar? [a, b, c, d, e, f, g, h]) (readBasic rest)
  | '\\' :: c :: rest => do prepend (← shortEscape? c) (readBasic rest)
  | c :: rest =>
    if c == '\x22' then some ([], rest)
    else if isInline c && c != '\\' then prepend c (readBasic rest)
    else none

/-- The rest of a text without escapes, up to its closing single quote. -/
def readLiteral : List Char → Option (List Char × List Char)
  | [] => none
  | c :: rest =>
    if c == '\x27' then some ([], rest)
    else if isInline c then prepend c (readLiteral rest)
    else none

/-- The quotes right before three closing ones, at most two, and what follows those. -/
def closingQuotes? (quote : Char) (s : List Char) : Option (List Char × List Char) :=
  let count := (s.takeWhile (· == quote)).length
  if count ≤ 5 then some (List.replicate (count - 3) quote, s.drop count) else none

/-- Whether a text starts with three quotes. -/
def startsClosing (quote : Char) (s : List Char) : Bool :=
  s.take 3 == [quote, quote, quote]

/--
The rest of a text with escapes over several lines, up to its three closing quotes. After a
backslash at the end of a line, blanks and line ends are skipped.
-/
def readBasicLines (skipping : Bool) : List Char → Option (List Char × List Char)
  | [] => none
  | '\r' :: '\n' :: rest =>
    if skipping then readBasicLines true rest else prepend '\n' (readBasicLines false rest)
  | '\\' :: 'u' :: a :: b :: c :: d :: rest => do
    prepend (← hexChar? [a, b, c, d]) (readBasicLines false rest)
  | '\\' :: 'U' :: a :: b :: c :: d :: e :: f :: g :: h :: rest => do
    prepend (← hexChar? [a, b, c, d, e, f, g, h]) (readBasicLines false rest)
  | '\\' :: c :: rest =>
    if (afterNewline? (skipSpace (c :: rest))).isSome then readBasicLines true (c :: rest)
    else do prepend (← shortEscape? c) (readBasicLines false rest)
  | c :: rest =>
    if skipping && (isSpace c || c == '\n') then readBasicLines true rest
    else if startsClosing '\x22' (c :: rest) then closingQuotes? '\x22' (c :: rest)
    else if (isInline c && c != '\\') || c == '\n' then prepend c (readBasicLines false rest)
    else none

/-- The rest of a text without escapes over several lines, up to its three closing quotes. -/
def readLiteralLines : List Char → Option (List Char × List Char)
  | [] => none
  | '\r' :: '\n' :: rest => prepend '\n' (readLiteralLines rest)
  | c :: rest =>
    if startsClosing '\x27' (c :: rest) then closingQuotes? '\x27' (c :: rest)
    else if isInline c || c == '\n' then prepend c (readLiteralLines rest)
    else none

/-- A quoted text on one line. -/
def readLine? (s : List Char) : Option (String × List Char) :=
  match s with
  | [] => none
  | c :: rest =>
    let read :=
      if c == '\x22' then readBasic rest else if c == '\x27' then readLiteral rest else none
    read.map fun (text, rest) => (String.ofList text, rest)

/-- A quoted text, which goes over several lines if it starts with three quotes. -/
def readQuoted? (s : List Char) : Option (String × List Char) :=
  let lines (read : List Char → Option (List Char × List Char)) : Option (String × List Char) :=
    (read (skipNewline (s.drop 3))).map fun (text, rest) => (String.ofList text, rest)
  if startsClosing '\x22' s then lines (readBasicLines false)
  else if startsClosing '\x27' s then lines readLiteralLines
  else readLine? s

end Rollback.Toml
