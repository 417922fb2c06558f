import Rollback.Text.CaseData

/-!
# Letter case

Full case mapping of texts, in which one character may become several. The capital sigma becomes a
final sigma at the end of a word: after a cased letter and not before one, where case-ignorable
characters in between are looked through.

- `lower`, `upper`: a text in lower or upper case
-/

set_option autoImplicit false

namespace Rollback.Text

/-- Whether a code point lies in one of the ranges, given in ascending order. -/
def inRanges : List (Nat × Nat) → Nat → Bool
  | [], _ => false
  | (first, last) :: rest, n => if n < first then false else n ≤ last || inRanges rest n

/-- The code point that a run maps `n` to. -/
def CaseRun.map? (run : CaseRun) (n : Nat) : Option Nat :=
  if run.first ≤ n && n ≤ run.last && (n - run.first) % run.stride == 0 then
    some (Int.toNat (n + run.delta))
  else none

/-- The images of a code point: several, one, or the code point itself. -/
def caseImage (runs : List CaseRun) (expansions : List (Nat × List Nat)) (n : Nat) : List Nat :=
  match expansions.lookup n with
  | some images => images
  | none => [(runs.findSome? (·.map? n)).getD n]

/-- A character in lower case. -/
def lowerChar (c : Char) : List Char :=
  if c.toNat < 128 then [c.toLower]
  else (caseImage lowerRuns lowerExpansions c.toNat).map Char.ofNat

/-- A character in upper case. -/
def upperChar (c : Char) : List Char :=
  if c.toNat < 128 then [c.toUpper]
  else (caseImage upperRuns upperExpansions c.toNat).map Char.ofNat

/-- A letter that has a case. -/
def isCased (c : Char) : Bool :=
  inRanges casedRanges c.toNat

/-- A character that does not separate a sigma from its neighbours. -/
def isCaseIgnorable (c : Char) : Bool :=
  inRanges caseIgnorableRanges c.toNat

/-- Whether the first character that is not case-ignorable is cased. -/
def startsCased (s : List Char) : Bool :=
  match s.dropWhile isCaseIgnorable with
  | [] => false
  | c :: _ => isCased c

/-- Lower case of the rest of a text; `before` holds what precedes it, nearest first. -/
def lowerFrom (before : List Char) : List Char → List Char
  | [] => []
  | c :: rest =>
    let image :=
      if c == 'Σ' then [if startsCased before && !startsCased rest then 'ς' else 'σ']
      else lowerChar c
    image ++ lowerFrom (c :: before) rest

/-- The text in lower case. -/
def lower (s : List Char) : List Char :=
  lowerFrom [] s

/-- The text in upper case. -/
def upper (s : List Char) : List Char :=
  s.flatMap upperChar

end Rollback.Text

namespace String

/-- The text in lower case. -/
def lowerCase (s : String) : String :=
  String.ofList (Rollback.Text.lower s.toList)

/-- The text in upper case. -/
def upperCase (s : String) : String :=
  String.ofList (Rollback.Text.upper s.toList)

end String
