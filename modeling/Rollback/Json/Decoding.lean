import Rollback.Json.Node
import Rollback.Text.Blank

/-!
# Decoding of JSON documents

What typed readers make of the parts of a document.

- `Node.natural?`, `Node.text?`, `Node.bool?`, `Node.list?`, `Node.entries?`: parts of a given type
- `Node.record?`: the fields of a record
- `Node.value?`: any value, whose objects are ordered by name
-/

set_option autoImplicit false

namespace Rollback.Json

/-- The number with the given decimal digits, the highest first. -/
def ofDigits (digits : List Nat) : Nat :=
  digits.foldl (fun n d => 10 * n + d) 0

/-! ## Doubles

A number with a point or an exponent, or one that is too large for an integer, becomes a double: as
many of its digits as fit into 64 bits, scaled by a power of ten in double arithmetic.
-/

/-- The largest natural number that a 64-bit word holds. -/
def maxWord : Nat := 0xFFFFFFFFFFFFFFFF

/-- The longest leading part of the digits whose value fits into a word, and the other digits. -/
def fitWord (value : Nat) : List Nat → Nat × List Nat
  | [] => (value, [])
  | d :: rest =>
    if 10 * value + d > maxWord then (value, d :: rest) else fitWord (10 * value + d) rest

/-- A power of ten as a double. -/
def powerOfTen (n : Nat) : Float :=
  Float.ofScientific 1 false n

/--
A double scaled by a power of ten, unless it is too large. Numbers below the reach of one division
are divided several times, at most `steps` times.
-/
def scaleDouble (f : Float) (exponent : Int) : Nat → Option Float
  | 0 => some 0.0
  | steps + 1 =>
    if exponent.natAbs ≤ 308 then
      if exponent ≥ 0 then
        let scaled := f * powerOfTen exponent.natAbs
        if scaled.isInf then none else some scaled
      else some (f / powerOfTen exponent.natAbs)
    else if f == 0.0 then some f
    else if exponent ≥ 0 then none
    else scaleDouble (f / powerOfTen 308) (exponent + 308) steps

/-- The largest exponent that is counted exactly. -/
def maxExponent : Nat := 0x7FFFFFFF

/-- An exponent kept within 32 bits. -/
def clampExponent (e : Int) : Int :=
  max (-0x80000000) (min maxExponent e)

/-- The double that a number stands for, unless it is too large. -/
def NumberText.double? (n : NumberText) : Option Number := do
  let fraction := n.fraction.getD []
  let (significand, wholeLeft) := fitWord 0 n.whole
  let (significand, fractionLeft) := fitWord significand fraction
  let used := fraction.length - fractionLeft.length
  let shift : Int := (wholeLeft.length : Int) - used
  let f := (UInt64.ofNat significand).toFloat
  let scaled ← match n.exponent with
    | none => scaleDouble f shift 8
    | some (negative, digits) =>
      let e := ofDigits digits
      -- So large an exponent outweighs any number of digits.
      if e > maxExponent then
        if significand != 0 && !negative then none else some 0.0
      else
        let e : Int := if negative then -e else e
        scaleDouble f (clampExponent (shift + e)) 8
  return .double (if n.negative then -scaled else scaled).toBits

/-- The number that a text stands for: an integer of 64 bits, or else a double. -/
def NumberText.number? (n : NumberText) : Option Number :=
  let whole := ofDigits n.whole
  match n.fraction, n.exponent with
  | none, none =>
    if n.negative then
      if whole != 0 && whole ≤ 0x8000000000000000 then some (.integer (-whole)) else n.double?
    else if whole ≤ maxWord then some (.integer whole) else n.double?
  | _, _ => n.double?

namespace Node

/-- A natural number up to a bound. -/
def natural? (bound : Nat) : Node → Option Nat
  | number n =>
    match n.negative, n.fraction, n.exponent with
    | false, none, none =>
      let value := ofDigits n.whole
      if value ≤ bound then some value else none
    | _, _, _ => none
  | _ => none

/-- A text. -/
def text? : Node → Option String
  | string s => s
  | _ => none

/-- A truth value. -/
def bool? : Node → Option Bool
  | bool b => some b
  | _ => none

/-- A list of parts that are read alike. -/
def list? {α : Type} (decode : Node → Option α) : Node → Option (List α)
  | array items => items.mapM decode
  | _ => none

/-- Named parts that are read alike. -/
def entries? {α : Type} (decode : Node → Option α) : Node → Option (List (String × α))
  | object fields => fields.mapM fun (name, value) => do return (← name, ← decode value)
  | _ => none

/-- A part that may be null. -/
def nullable? {α : Type} (decode : Node → Option α) : Node → Option (Option α)
  | null => some none
  | node => (decode node).map some

/-- The part for one field, given by its names; nothing if two parts stand for it. -/
def fieldOf? (names : List String) (fields : List (String × Node)) : Option (Option Node) :=
  match fields.filter fun (name, _) => names.contains name with
  | [] => some none
  | [(_, value)] => some (some value)
  | _ => none

/--
The parts of a record, one for each field, given by its names. A record is an object, in which
unknown fields do not matter and known ones stand at most once, or an array with the fields in
order, of which the last ones may be missing.
-/
def record? (names : List (List String)) : Node → Option (List (Option Node))
  | object fields => do
    let fields ← fields.mapM fun (name, value) => name.map fun name => (name, value)
    names.mapM fun aliases => fieldOf? aliases fields
  | array items =>
    if items.length ≤ names.length then
      some (items.map some ++ List.replicate (names.length - items.length) none)
    else none
  | _ => none

/-- The part of a field, read, or a default where it is missing. -/
def orElse? {α : Type} (default : α) (decode : Node → Option α) : Option Node → Option α
  | none => some default
  | some node => decode node

end Node

/-- The fields with one more, which replaces an earlier one of the same name; ordered by name. -/
def insertField (name : String) (value : Value) :
    List (String × Value) → List (String × Value)
  | [] => [(name, value)]
  | (k, v) :: rest =>
    if name < k then (name, value) :: (k, v) :: rest
    else if name = k then (name, value) :: rest
    else (k, v) :: insertField name value rest

mutual

/-- Any value, nested at most `depth` deep. -/
def Node.value? (depth : Nat) : Node → Option Value
  | .null => some .null
  | .bool b => some (.bool b)
  | .number n => n.number?.map .number
  | .string s => s.map .string
  | .array items => match depth with
    | 0 => none
    | depth + 1 => (Node.values? depth items).map .array
  | .object fields => match depth with
    | 0 => none
    | depth + 1 => (Node.fieldValues? depth fields []).map .object

/-- The values of a list. -/
def Node.values? (depth : Nat) : List Node → Option (List Value)
  | [] => some []
  | node :: rest => do return (← Node.value? depth node) :: (← Node.values? depth rest)

/-- The fields read so far and those that follow. -/
def Node.fieldValues? (depth : Nat) :
    List (Option String × Node) → List (String × Value) → Option (List (String × Value))
  | [], read => some read
  | (name, node) :: rest, read => do
    let value ← Node.value? depth node
    Node.fieldValues? depth rest (insertField (← name) value read)

end

end Rollback.Json
