/-!
# Shortest decimals

The shortest decimal that reads back as a given binary floating-point number. A finite double is a
natural number times a power of two. The decimals that read back as it are those within half a step
to its neighbours, the ends included if its significand is even.

- `Binary.ofBits`: sign, significand and exponent of a finite double
- `Binary.shortest`: the fewest digits that read back, nearest to the number
-/

set_option autoImplicit false

namespace Rollback.Decimal

/-- The magnitude `significand * 2 ^ exponent` with a sign. -/
structure Binary where
  negative : Bool
  significand : Nat
  exponent : Int
  /-- Whether the gap to the next smaller number is half the gap to the next larger one. -/
  narrowBelow : Bool
deriving Repr

/-- A decimal without its sign: the digits of `digits`, times a power of ten. -/
structure Digits where
  digits : List Nat
  exponent : Int
deriving Repr

/-- The finite double with the given bits. -/
def Binary.ofBits (bits : UInt64) : Binary :=
  let n := bits.toNat
  let fraction := n % Nat.pow 2 52
  let biased : Nat := n / Nat.pow 2 52 % Nat.pow 2 11
  let negative := n / Nat.pow 2 63 == 1
  if biased == 0 then ⟨negative, fraction, -1074, false⟩
  else ⟨negative, Nat.pow 2 52 + fraction, Int.ofNat biased - 1075, fraction == 0 && biased > 1⟩

/-- The decimal digits of a natural number, the highest first. -/
def digitsOf (n : Nat) : List Nat :=
  (Nat.toDigits 10 n).map fun c => c.toNat - '0'.toNat

/-- A digit list without zeros at its end, whose removal raises the exponent. -/
def Digits.normalize (d : Digits) : Digits :=
  let kept := (d.digits.reverse.dropWhile (· == 0)).reverse
  ⟨kept, d.exponent + (d.digits.length - kept.length)⟩

/--
The multiple of `unit` between `low` and `high` that is nearest to `value`, given that it is one of
the two neighbours of `value`; of two equally near ones, the even multiple.
-/
def nearestMultiple? (inside : Nat → Bool) (value unit : Nat) : Option Nat :=
  let below := value / unit
  let above := below + 1
  let toBelow := value - below * unit
  let toAbove := above * unit - value
  match inside (below * unit), inside (above * unit) with
  | true, true =>
    if toBelow < toAbove then some below
    else if toAbove < toBelow then some above
    else if below % 2 == 0 then some below else some above
  | true, false => some below
  | false, true => some above
  | false, false => none

/-- The first grid, from coarse to fine, with a multiple that reads back. -/
def firstOnGrid (inside : Nat → Bool) (value : Nat) : Nat → Nat × Nat
  | 0 => (value, 0)
  | places + 1 =>
    match nearestMultiple? inside value (Nat.pow 10 (places + 1)) with
    | some multiple => (multiple, places + 1)
    | none => firstOnGrid inside value places

/-- The shortest digits that read back as a number other than zero. -/
def Binary.shortest (b : Binary) : Digits :=
  -- Four times the significand, so that the ends of the interval are natural numbers too.
  let exponent := b.exponent - 2
  let scale : Nat := if exponent ≥ 0 then Nat.pow 2 exponent.toNat else Nat.pow 5 exponent.natAbs
  let tens : Int := if exponent ≥ 0 then 0 else exponent
  let value := 4 * b.significand * scale
  let low := (4 * b.significand - if b.narrowBelow then 1 else 2) * scale
  let high := (4 * b.significand + 2) * scale
  let inside (n : Nat) : Bool :=
    if b.significand % 2 == 0 then low ≤ n && n ≤ high else low < n && n < high
  let (multiple, places) := firstOnGrid inside value ((digitsOf value).length - 1)
  Digits.normalize ⟨digitsOf multiple, tens + places⟩

end Rollback.Decimal
