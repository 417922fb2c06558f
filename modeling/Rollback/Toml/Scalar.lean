import Rollback.Json.Decoding
import Rollback.Time.Instant

/-!
# Scalars of TOML

The forms of numbers and times. No setting is a number or a time, so only their forms matter and
not their values.

- `isNumber`: whether a word is an integer or a float
- `isDate`, `isClock`, `isDateTime`: whether a word is a day, a time of day, or both
-/

set_option autoImplicit false

namespace Rollback.Toml

/-- The digits of a number whose digits may have single underscores between them. -/
def digitsOf? (base : Nat) : List Char → Option (List Nat)
  | [] => none
  | [c] => ((Json.hexDigit? c).filter (· < base)).map fun d => [d]
  | c :: '_' :: rest => do
    let d ← (Json.hexDigit? c).filter (· < base)
    return d :: (← digitsOf? base rest)
  | c :: rest => do
    let d ← (Json.hexDigit? c).filter (· < base)
    return d :: (← digitsOf? base rest)

/-- A number without the sign before it, and whether that is a minus sign. -/
def splitSign : List Char → Bool × List Char
  | '+' :: rest => (false, rest)
  | '-' :: rest => (true, rest)
  | s => (false, s)

/-- The digits of a number that does not start with a superfluous zero. -/
def plainDigits? (s : List Char) : Option (List Nat) := do
  match ← digitsOf? 10 s with
  | 0 :: _ :: _ => none
  | digits => return digits

/-- The value of digits in a base. -/
def valueIn (base : Nat) (digits : List Nat) : Nat :=
  digits.foldl (fun n d => base * n + d) 0

/-- The number of integers of 64 bits that are not negative. -/
def integerLimit : Nat := 0x8000000000000000

/-- Whether a word is an integer of 64 bits. -/
def isInteger (word : List Char) : Bool :=
  let based (base : Nat) (s : List Char) : Bool :=
    ((digitsOf? base s).map (valueIn base)).any (· < integerLimit)
  match word with
  | '0' :: 'x' :: rest => based 16 rest
  | '0' :: 'o' :: rest => based 8 rest
  | '0' :: 'b' :: rest => based 2 rest
  | _ =>
    let (negative, s) := splitSign word
    ((plainDigits? s).map (valueIn 10)).any fun n =>
      if negative then n ≤ integerLimit else n < integerLimit

/-- Whether a decimal is too large for a double. -/
def isTooLarge (digits : List Nat) (exponent : Int) : Bool :=
  let value := valueIn 10 digits
  let magnitude : Int := (Nat.repr value).length + exponent
  let limit := Nat.pow 2 1024 - Nat.pow 2 970
  value != 0 &&
    (magnitude > 320 ||
      (magnitude > 300 &&
        if exponent ≥ 0 then value * Nat.pow 10 exponent.natAbs ≥ limit
        else value ≥ limit * Nat.pow 10 exponent.natAbs))

/-- Whether a word is a float; a positive one must not be too large. -/
def isFloat (word : List Char) : Bool :=
  let (negative, s) := splitSign word
  if s == ['i', 'n', 'f'] || s == ['n', 'a', 'n'] then true
  else
    let isMark (c : Char) : Bool := c == 'e' || c == 'E'
    let mantissa := s.takeWhile fun c => !isMark c
    let whole := mantissa.takeWhile (· != '.')
    let read : Option Bool := do
      let wholeDigits ← plainDigits? whole
      let fraction ← match mantissa.drop whole.length with
        | [] => some []
        | _ :: rest => digitsOf? 10 rest
      let exponent ← match s.drop mantissa.length with
        | [] => some (0 : Int)
        | _ :: rest =>
          let (negative, digits) := splitSign rest
          (digitsOf? 10 digits).map fun ds =>
            if negative then -(valueIn 10 ds : Int) else valueIn 10 ds
      if whole.length == s.length then none
      else
        return negative || !isTooLarge (wholeDigits ++ fraction) (exponent - fraction.length)
    read.getD false

/-- Whether a word is a number. -/
def isNumber (word : List Char) : Bool :=
  isInteger word || isFloat word

/-- Two digits of a number up to a bound, and what follows them. -/
def twoDigits? (least most : Nat) (s : List Char) : Option (Nat × List Char) :=
  (Time.readTwoDigits? s).filter fun (n, _) => least ≤ n && n ≤ most

/-- What follows a character. -/
def after? (c : Char) : List Char → Option (List Char)
  | [] => none
  | d :: rest => if d == c then some rest else none

/-- What follows a day of the calendar. -/
def afterDate? (s : List Char) : Option (List Char) := do
  let (century, s) ← Time.readTwoDigits? s
  let (year, s) ← Time.readTwoDigits? s
  let (month, s) ← twoDigits? 1 12 (← after? '-' s)
  let (_, s) ← twoDigits? 1 (Time.daysInMonth (century * 100 + year : Nat) month) (← after? '-' s)
  return s

/-- What follows a time of day. -/
def afterClock? (s : List Char) : Option (List Char) := do
  let (_, s) ← twoDigits? 0 23 s
  let (_, s) ← twoDigits? 0 59 (← after? ':' s)
  let (_, s) ← twoDigits? 0 60 (← after? ':' s)
  match s with
  | '.' :: rest =>
    if (rest.takeWhile Char.isDigit).isEmpty then none else some (rest.dropWhile Char.isDigit)
  | _ => some s

/-- Whether a text is an offset from universal time, or empty. -/
def isOffset (s : List Char) : Bool :=
  match s with
  | [] => true
  | ['Z'] => true
  | ['z'] => true
  | c :: rest =>
    (c == '+' || c == '-') &&
      (do
        let (_, s) ← twoDigits? 0 23 rest
        let (_, s) ← twoDigits? 0 59 (← after? ':' s)
        return s.isEmpty : Option Bool).getD false

/-- Whether a word is a time of day. -/
def isClock (word : List Char) : Bool :=
  (afterClock? word).any List.isEmpty

/-- Whether a word is a time of day, perhaps with an offset. -/
def isOffsetClock (word : List Char) : Bool :=
  (afterClock? word).any isOffset

/-- Whether a word is a day. -/
def isDate (word : List Char) : Bool :=
  (afterDate? word).any List.isEmpty

/-- Whether a word is a day and a time of day with a letter between them. -/
def isDateTime (word : List Char) : Bool :=
  match afterDate? word with
  | some (c :: rest) => (c == 'T' || c == 't') && isOffsetClock rest
  | _ => false

/-- A character of a word. -/
def isWordChar (c : Char) : Bool :=
  c.isAlphanum || c == '_' || c == '+' || c == '-' || c == '.' || c == ':'

/-- Whether a text starts with the hour of a time of day. -/
def startsClock : List Char → Bool
  | a :: b :: ':' :: _ => a.isDigit && b.isDigit
  | _ => false

/-- What follows a day and perhaps, after a space, a time of day. -/
def afterDay? (s : List Char) : Option (List Char) :=
  let word := s.takeWhile isWordChar
  let rest := s.drop word.length
  if isDate word then
    match rest with
    | ' ' :: more =>
      if startsClock more then
        if isOffsetClock (more.takeWhile isWordChar) then some (more.dropWhile isWordChar)
        else none
      else some rest
    | _ => some rest
  else none

end Rollback.Toml
