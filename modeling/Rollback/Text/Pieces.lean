/-!
# Pieces of a text

Cutting a text at a separator.

- `pieces`: the parts between all separators, empty ones included
- `cutAtFirst`, `cutAtLast`: the two parts around one separator
-/

set_option autoImplicit false

namespace Rollback.Text

/-- The parts after `piece`, of which the characters read so far are given in reverse. -/
def piecesFrom (separator : Char) (piece : List Char) : List Char → List (List Char)
  | [] => [piece.reverse]
  | c :: rest =>
    if c == separator then piece.reverse :: piecesFrom separator [] rest
    else piecesFrom separator (c :: piece) rest

/-- The parts of a text between its separators; a text without one is a single part. -/
def pieces (separator : Char) (s : List Char) : List (List Char) :=
  piecesFrom separator [] s

/-- The texts before and after the first separator. -/
def cutAtFirst (separator : Char) (s : List Char) : Option (List Char × List Char) :=
  match s.dropWhile (· != separator) with
  | [] => none
  | _ :: rest => some (s.takeWhile (· != separator), rest)

/-- The texts before and after the last separator. -/
def cutAtLast (separator : Char) (s : List Char) : Option (List Char × List Char) :=
  (cutAtFirst separator s.reverse).map fun (after, before) => (before.reverse, after.reverse)

/-- The texts with the separator between neighbours. -/
def join (separator : String) (parts : List String) : String :=
  separator.intercalate parts

end Rollback.Text
