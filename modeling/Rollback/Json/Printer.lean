import Rollback.Decimal.Shortest
import Rollback.Json.Value

/-!
# Printing of JSON

- `Value.compact`: a value on one line, without blanks
- `Value.pretty`: a value over several lines, two spaces deeper at each level
-/

set_option autoImplicit false

namespace Rollback.Json

/-- The text of a digit. -/
def digitText (n : Nat) : String :=
  String.singleton (Nat.digitChar n)

/-- The text of a list of digits. -/
def digitsText (ds : List Nat) : String :=
  String.ofList (ds.map Nat.digitChar)

/--
The layout of a decimal. Its point is set positionally from four zeros after the point up to sixteen
digits before it; other numbers have one digit before the point and an exponent with a sign.
-/
def layout (d : Decimal.Digits) : String :=
  let count := d.digits.length
  let point : Int := count + d.exponent
  if 0 ≤ d.exponent && point ≤ 16 then
    digitsText (d.digits ++ List.replicate d.exponent.toNat 0) ++ ".0"
  else if 0 < point && point ≤ 16 then
    digitsText (d.digits.take point.toNat) ++ "." ++ digitsText (d.digits.drop point.toNat)
  else if -5 < point && point ≤ 0 then
    "0." ++ digitsText (List.replicate point.natAbs 0 ++ d.digits)
  else
    let fraction := if count == 1 then "" else "." ++ digitsText (d.digits.drop 1)
    let sign := if point > 0 then "+" else ""
    digitsText (d.digits.take 1) ++ fraction ++ "e" ++ sign ++ toString (point - 1)

/-- The text of a finite double. -/
def doubleText (bits : UInt64) : String :=
  let b := Decimal.Binary.ofBits bits
  let sign := if b.negative then "-" else ""
  if b.significand == 0 then sign ++ "0.0" else sign ++ layout b.shortest

/-- The text of a number. -/
def Number.text : Number → String
  | .integer n => toString n
  | .double bits => doubleText bits

/-- A character inside a string. -/
def escapeChar (c : Char) : List Char :=
  if c == '\x22' then ['\\', '\x22']
  else if c == '\\' then ['\\', '\\']
  else if c == '\n' then ['\\', 'n']
  else if c == '\r' then ['\\', 'r']
  else if c == '\t' then ['\\', 't']
  else if c == '\x08' then ['\\', 'b']
  else if c == '\x0c' then ['\\', 'f']
  else if c.toNat < 0x20 then
    ['\\', 'u', '0', '0', Nat.digitChar (c.toNat / 16), Nat.digitChar (c.toNat % 16)]
  else [c]

/-- A text in quotes. -/
def quoted (s : String) : String :=
  String.ofList ('\x22' :: s.toList.flatMap escapeChar ++ ['\x22'])

namespace Value

mutual

/-- A value without blanks. -/
def compact : Value → String
  | null => "null"
  | bool true => "true"
  | bool false => "false"
  | number n => n.text
  | string s => quoted s
  | array items => "[" ++ ",".intercalate (compactItems items) ++ "]"
  | object fields => "\x7b" ++ ",".intercalate (compactFields fields) ++ "\x7d"

/-- The items of an array without blanks. -/
def compactItems : List Value → List String
  | [] => []
  | item :: rest => compact item :: compactItems rest

/-- The fields of an object without blanks. -/
def compactFields : List (String × Value) → List String
  | [] => []
  | (name, value) :: rest => (quoted name ++ ":" ++ compact value) :: compactFields rest

end

/-- A line break and the blanks before the items of a level. -/
def lineBreak (level : Nat) : String :=
  "\n" ++ String.ofList (List.replicate (2 * level) ' ')

/-- Items on lines of their own between two brackets; no lines if there are no items. -/
def bracketed (opening closing : String) (level : Nat) : List String → String
  | [] => opening ++ closing
  | items =>
    opening ++ lineBreak (level + 1) ++ ("," ++ lineBreak (level + 1)).intercalate items ++
      lineBreak level ++ closing

mutual

/-- A value at a level of indentation. -/
def prettyAt (level : Nat) : Value → String
  | null => "null"
  | bool true => "true"
  | bool false => "false"
  | number n => n.text
  | string s => quoted s
  | array items => bracketed "[" "]" level (prettyItems (level + 1) items)
  | object fields => bracketed "\x7b" "\x7d" level (prettyFields (level + 1) fields)

/-- The items of an array at a level of indentation. -/
def prettyItems (level : Nat) : List Value → List String
  | [] => []
  | item :: rest => prettyAt level item :: prettyItems level rest

/-- The fields of an object at a level of indentation. -/
def prettyFields (level : Nat) : List (String × Value) → List String
  | [] => []
  | (name, value) :: rest =>
    (quoted name ++ ": " ++ prettyAt level value) :: prettyFields level rest

end

/-- A value over several lines. -/
def pretty (v : Value) : String :=
  prettyAt 0 v

end Value

end Rollback.Json
