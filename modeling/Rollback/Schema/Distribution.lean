import Rollback.Failure
import Rollback.Sql.Name
import Rollback.Text.Ascii
import Rollback.Text.Bytes

/-!
# Distribution of tables

How the rows of a table are spread over the nodes of a cluster.

- `Distribution.ofText`: reads `hash(a, b)`, `roundrobin` or `random`
- `Distribution.clause?`: the clause of a CREATE TABLE statement
-/

set_option autoImplicit false

namespace Rollback

/-- A way to choose the node of a row. -/
inductive DistributionKind where
  | hash
  | roundRobin
  | random
deriving DecidableEq, Repr

/-- A way to choose the node of a row, with the columns that it looks at. -/
structure Distribution where
  kind : DistributionKind
  columns : List String
deriving DecidableEq, Repr

/-- The name of a way to choose a node. -/
def DistributionKind.name : DistributionKind → String
  | hash => "hash"
  | roundRobin => "roundrobin"
  | random => "random"

/-- The names in a list, without quotes around them and without empty ones. -/
def columnList (list : List Char) : List String :=
  (((Text.pieces ',' list).map Text.unquote).filter fun name => !name.isEmpty).map String.ofList

namespace Distribution

/-- Rows are chosen by the values of columns. -/
def byHash (columns : List String) : Distribution := ⟨.hash, columns⟩

/-- Rows go to the nodes in turn. -/
def inTurn : Distribution := ⟨.roundRobin, []⟩

/-- Rows go to random nodes. -/
def atRandom : Distribution := ⟨.random, []⟩

/-- The clause of a CREATE TABLE statement; a hash over no columns has none. -/
def clause? (d : Distribution) : Option String :=
  match d.kind with
  | .hash =>
    if d.columns.isEmpty then none
    else some ("DISTRIBUTE BY HASH(" ++ Text.join ", " d.columns ++ ")")
  | .roundRobin => some "DISTRIBUTE BY ROUNDROBIN"
  | .random => some "DISTRIBUTED RANDOMLY"

/-- What stands between the parentheses that follow the word `hash` in a text in lower case. -/
def lowerOperands? : List Char → Option (List Char)
  | 'h' :: 'a' :: 's' :: 'h' :: rest =>
    match Text.trimStart rest with
    | '(' :: inside => if inside.getLast? == some ')' then some inside.dropLast else none
    | _ => none
  | _ => none

/-- What stands between the parentheses that follow the word `hash`. The place is found in the text
in lower case, and then cut out of the text itself. -/
def hashOperands? (text : List Char) : Option (List Char) := do
  let found ← lowerOperands? (Text.asciiLower text)
  let size := Text.byteSize text
  Text.slice? text (size - Text.byteSize found - 1) (size - 1)

/-- The distribution that a text names, in any ASCII case. -/
def ofText? (text : String) : Option Distribution :=
  let trimmed := Text.trim text.toList
  if Text.isOneOf ["roundrobin", "round_robin"] trimmed then some inTurn
  else if Text.isOneOf ["random", "randomly"] trimmed then some atRandom
  else
    let columns := ((hashOperands? trimmed).map columnList).getD []
    if columns.isEmpty then none else some (byHash columns)

/-- The distribution that a text names, or the reason that there is none. -/
def ofText (text : String) : Except Failure Distribution :=
  match ofText? text with
  | some d => .ok d
  | none => .error (.invalidDistribution text)

end Distribution

end Rollback
