import Rollback.Json.Value

/-!
# JSON documents

A document as it was read, before anything is made of it. Numbers keep their digits and texts with
unpaired surrogates are kept as unreadable, because a part of a document that nobody asks for may
hold numbers out of range and such texts.

- `Node.parse?`: reads a document
-/

set_option autoImplicit false

namespace Rollback.Json

/-- A number as it was written: a sign, the digits, and an exponent with its own sign. -/
structure NumberText where
  negative : Bool
  whole : List Nat
  /-- Digits after the point, if there is a point. -/
  fraction : Option (List Nat)
  /-- Sign and digits of the exponent, if there is one. -/
  exponent : Option (Bool × List Nat)
deriving Repr

/-- A part of a document. A text is absent if it holds an unpaired surrogate. -/
inductive Node where
  | null
  | bool (b : Bool)
  | number (n : NumberText)
  | string (s : Option String)
  | array (items : List Node)
  | object (fields : List (Option String × Node))

/-- A character of a text, or one half of a pair of surrogates. -/
inductive TextUnit where
  | char (c : Char)
  | high (n : Nat)
  | low (n : Nat)

/-- The characters of a text, unless a surrogate lacks its other half. -/
def joinUnits : List TextUnit → Option (List Char)
  | [] => some []
  | .char c :: rest => (joinUnits rest).map (c :: ·)
  | .high h :: .low l :: rest =>
    (joinUnits rest).map (Char.ofNat (0x10000 + (h - 0xD800) * 0x400 + (l - 0xDC00)) :: ·)
  | _ => none

/-- Blanks between the tokens of a document. -/
def isSpace (c : Char) : Bool :=
  c == ' ' || c == '\n' || c == '\t' || c == '\r'

/-- The text after blanks. -/
def skipSpace (s : List Char) : List Char :=
  s.dropWhile isSpace

/-- The value of a hexadecimal digit. -/
def hexDigit? (c : Char) : Option Nat :=
  if c.isDigit then some (c.toNat - '0'.toNat)
  else if 'a' ≤ c && c ≤ 'f' then some (c.toNat - 'a'.toNat + 10)
  else if 'A' ≤ c && c ≤ 'F' then some (c.toNat - 'A'.toNat + 10)
  else none

/-- The unit of a four-digit escape. -/
def unitOf (n : Nat) : TextUnit :=
  if 0xD800 ≤ n && n < 0xDC00 then .high n
  else if 0xDC00 ≤ n && n < 0xE000 then .low n
  else .char (Char.ofNat n)

/-- The character that a one-letter escape stands for. -/
def shortEscape? (c : Char) : Option Char :=
  if c == '\x22' || c == '\\' || c == '/' then some c
  else if c == 'b' then some '\x08'
  else if c == 'f' then some '\x0c'
  else if c == 'n' then some '\n'
  else if c == 'r' then some '\r'
  else if c == 't' then some '\t'
  else none

/-- Reads the rest of a text after its opening quote. -/
def readUnits : List Char → Option (List TextUnit × List Char)
  | [] => none
  | '\\' :: 'u' :: a :: b :: c :: d :: rest => do
    let n := (← hexDigit? a) * 4096 + (← hexDigit? b) * 256 + (← hexDigit? c) * 16 + (← hexDigit? d)
    let (units, rest) ← readUnits rest
    return (unitOf n :: units, rest)
  | '\\' :: c :: rest => do
    let c ← shortEscape? c
    let (units, rest) ← readUnits rest
    return (.char c :: units, rest)
  | c :: rest =>
    if c == '\x22' then some ([], rest)
    else if c.toNat < 0x20 then none
    else do
      let (units, rest) ← readUnits rest
      return (.char c :: units, rest)

/-- Reads the rest of a text after its opening quote. -/
def readText (s : List Char) : Option (Option String × List Char) := do
  let (units, rest) ← readUnits s
  return ((joinUnits units).map String.ofList, rest)

/-- The digits at the start of a text. -/
def readDigits (s : List Char) : List Nat × List Char :=
  ((s.takeWhile Char.isDigit).map fun c => c.toNat - '0'.toNat, s.dropWhile Char.isDigit)

/-- Reads the digits after a point, if there is a point; then there must be digits. -/
def readFraction (s : List Char) : Option (Option (List Nat) × List Char) :=
  match s with
  | '.' :: rest =>
    let (digits, rest) := readDigits rest
    if digits.isEmpty then none else some (some digits, rest)
  | _ => some (none, s)

/-- Reads an exponent, if there is one; then there must be digits. -/
def readExponent (s : List Char) : Option (Option (Bool × List Nat) × List Char) :=
  match s with
  | c :: rest =>
    if c == 'e' || c == 'E' then
      let (negative, rest) := match rest with
        | '-' :: rest => (true, rest)
        | '+' :: rest => (false, rest)
        | _ => (false, rest)
      let (digits, rest) := readDigits rest
      if digits.isEmpty then none else some (some (negative, digits), rest)
    else some (none, s)
  | [] => some (none, s)

/-- Reads a number; a zero is not followed by more digits before the point. -/
def readNumber (s : List Char) : Option (NumberText × List Char) := do
  let (negative, s) := match s with
    | '-' :: rest => (true, rest)
    | _ => (false, s)
  let (whole, s) := readDigits s
  match whole with
  | [] => none
  -- No digit follows a zero at the start.
  | 0 :: _ :: _ => none
  | _ =>
    let (fraction, s) ← readFraction s
    let (exponent, s) ← readExponent s
    return (⟨negative, whole, fraction, exponent⟩, s)

/-- Reads one of the three words, or a number. -/
def readScalar (s : List Char) : Option (Node × List Char) :=
  match s with
  | 'n' :: 'u' :: 'l' :: 'l' :: rest => some (.null, rest)
  | 't' :: 'r' :: 'u' :: 'e' :: rest => some (.bool true, rest)
  | 'f' :: 'a' :: 'l' :: 's' :: 'e' :: rest => some (.bool false, rest)
  | _ => (readNumber s).map fun (n, rest) => (.number n, rest)

mutual

/-- Reads a value; `fuel` bounds the steps and is at least the length of the text. -/
def readNode (fuel : Nat) (s : List Char) : Option (Node × List Char) :=
  match fuel with
  | 0 => none
  | fuel + 1 =>
    match skipSpace s with
    | [] => none
    | c :: rest =>
      if c == '\x22' then (readText rest).map fun (text, rest) => (.string text, rest)
      else if c == '[' then
        match skipSpace rest with
        | ']' :: rest => some (.array [], rest)
        | _ => (readItems fuel rest).map fun (items, rest) => (.array items, rest)
      else if c == '\x7b' then
        match skipSpace rest with
        | [] => none
        | d :: after =>
          if d == '\x7d' then some (.object [], after)
          else (readFields fuel rest).map fun (fields, rest) => (.object fields, rest)
      else readScalar (c :: rest)

/-- Reads the items of an array up to its closing bracket. -/
def readItems (fuel : Nat) (s : List Char) : Option (List Node × List Char) :=
  match fuel with
  | 0 => none
  | fuel + 1 => do
    let (item, s) ← readNode fuel s
    match skipSpace s with
    | ',' :: rest =>
      let (items, rest) ← readItems fuel rest
      return (item :: items, rest)
    | ']' :: rest => return ([item], rest)
    | _ => none

/-- Reads the fields of an object up to its closing brace. -/
def readFields (fuel : Nat) (s : List Char) : Option (List (Option String × Node) × List Char) :=
  match fuel with
  | 0 => none
  | fuel + 1 =>
    match skipSpace s with
    | [] => none
    | quote :: rest =>
      if quote != '\x22' then none
      else do
        let (name, s) ← readText rest
        match skipSpace s with
        | ':' :: rest =>
          let (value, s) ← readNode fuel rest
          match skipSpace s with
          | [] => none
          | c :: rest =>
            if c == ',' then
              let (fields, rest) ← readFields fuel rest
              return ((name, value) :: fields, rest)
            else if c == '\x7d' then return ([(name, value)], rest)
            else none
        | _ => none

end

/-- Reads a document: one value with nothing but blanks around it. -/
def Node.parse? (text : String) : Option Node := do
  let chars := text.toList
  let (node, rest) ← readNode (2 * chars.length + 2) chars
  if (skipSpace rest).isEmpty then some node else none

end Rollback.Json
