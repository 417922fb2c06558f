import Rollback.Text.Blank

/-!
# Instants

Points in time, counted from the start of the year 1970 in universal time, with the calendar to read
and write them. A leap second counts as part of the second before it.

- `Instant.ofText?`: reads a date, a time of day and an offset
- `Instant.text`: writes an instant with as many digits of a second as it needs
- `Instant.display`: writes an instant to the second
-/

set_option autoImplicit false

namespace Rollback

/-- A point in time; in a leap second, the nanoseconds run from one billion up to two billion. -/
structure Instant where
  /-- Whole seconds since the start of 1970. -/
  seconds : Int
  nanoseconds : Nat
deriving DecidableEq, Repr

namespace Time

/-- A day of the calendar. -/
structure Date where
  year : Int
  month : Nat
  day : Nat
deriving DecidableEq, Repr

/-- Whether a year has a leap day. -/
def isLeapYear (year : Int) : Bool :=
  year % 4 == 0 && (year % 100 != 0 || year % 400 == 0)

/-- The number of days of a month. -/
def daysInMonth (year : Int) (month : Nat) : Nat :=
  if month == 2 then if isLeapYear year then 29 else 28
  else if month == 4 || month == 6 || month == 9 || month == 11 then 30
  else 31

/-- The days of a year that started in March, before the first day of one of its months. -/
def daysBeforeMonth (marchMonth : Nat) : Nat :=
  (153 * marchMonth + 2) / 5

/-- Days from the start of 1970 to a day, which counts years from March to February. -/
def Date.dayNumber (d : Date) : Int :=
  let year := if d.month ≤ 2 then d.year - 1 else d.year
  let marchMonth := (d.month + 9) % 12
  365 * year + year.fdiv 4 - year.fdiv 100 + year.fdiv 400 + daysBeforeMonth marchMonth +
    d.day - 1 - 719468

/-- The day with a given number of days from the start of 1970 to it. -/
def Date.ofDayNumber (number : Int) : Date :=
  -- An era has 400 years, after which the calendar repeats itself; its first day is in March.
  let shifted := number + 719468
  let era := shifted.fdiv 146097
  let dayOfEra := (shifted.fmod 146097).toNat
  let yearOfEra := (dayOfEra - dayOfEra / 1460 + dayOfEra / 36524 - dayOfEra / 146096) / 365
  let dayOfYear := dayOfEra - (365 * yearOfEra + yearOfEra / 4 - yearOfEra / 100)
  let marchMonth := (5 * dayOfYear + 2) / 153
  let month := if marchMonth < 10 then marchMonth + 3 else marchMonth - 9
  let year := era * 400 + yearOfEra
  ⟨if month ≤ 2 then year + 1 else year, month, dayOfYear - daysBeforeMonth marchMonth + 1⟩

/-- Whether a day is one of the calendar, within the years that are counted. -/
def Date.isValid (d : Date) : Bool :=
  -262143 ≤ d.year && d.year ≤ 262142 && 1 ≤ d.month && d.month ≤ 12 && 1 ≤ d.day &&
    d.day ≤ daysInMonth d.year d.month

/-- Digits at the start of a text, at least one and at most `most`, and what follows them. -/
def readNumber? (most : Nat) (s : List Char) : Option (Nat × List Char) :=
  let digits := (s.take most).takeWhile Char.isDigit
  if digits.isEmpty then none
  else
    some (digits.foldl (fun n c => n * 10 + (c.toNat - '0'.toNat)) 0, s.drop digits.length)

/-- A number of two digits or fewer, perhaps with blanks before it. -/
def readField? (s : List Char) : Option (Nat × List Char) :=
  readNumber? 2 (Text.trimStart s)

/-- A year of up to four digits, or of any length with a sign before it. -/
def readYear? (s : List Char) : Option (Int × List Char) :=
  match Text.trimStart s with
  | '-' :: rest => (readNumber? rest.length rest).map fun (n, rest) => (-n, rest)
  | '+' :: rest => (readNumber? rest.length rest).map fun (n, rest) => (n, rest)
  | rest => (readNumber? 4 rest).map fun (n, rest) => (n, rest)

/-- What follows a separator, perhaps with blanks before it. -/
def afterSeparator? (separator : Char) (s : List Char) : Option (List Char) :=
  match Text.trimStart s with
  | c :: rest => if c == separator then some rest else none
  | [] => none

/-- The part of a second after a point, in nanoseconds; digits after the ninth do not count. -/
def readFraction? (s : List Char) : Option (Nat × List Char) :=
  match s with
  | '.' :: rest => do
    let (n, after) ← readNumber? 9 rest
    return (n * Nat.pow 10 (9 - (rest.length - after.length)), after.dropWhile Char.isDigit)
  | _ => some (0, s)

/-- Two digits. -/
def readTwoDigits? : List Char → Option (Nat × List Char)
  | a :: b :: rest =>
    if a.isDigit && b.isDigit then
      some ((a.toNat - '0'.toNat) * 10 + (b.toNat - '0'.toNat), rest)
    else none
  | _ => none

/-- An offset in hours and minutes, in seconds. -/
def readHoursAndMinutes? (s : List Char) : Option (Nat × List Char) := do
  let (hours, s) ← readTwoDigits? s
  let (minutes, s) ← readTwoDigits? (s.dropWhile fun c => c == ':' || Text.isBlank c)
  if minutes < 60 then return (hours * 3600 + minutes * 60, s) else none

/-- The offset from universal time in seconds: a letter, the name of that time, or a signed span. -/
def readOffset? (s : List Char) : Option (Int × List Char) :=
  let s := Text.trimStart s
  if (s.take 3).map Char.toUpper == ['U', 'T', 'C'] then some (0, s.drop 3)
  else
    match s with
    | 'Z' :: rest => some (0, rest)
    | 'z' :: rest => some (0, rest)
    | '+' :: rest => (readHoursAndMinutes? rest).map fun (n, rest) => (n, rest)
    | '-' :: rest => (readHoursAndMinutes? rest).map fun (n, rest) => (-n, rest)
    | '−' :: rest => (readHoursAndMinutes? rest).map fun (n, rest) => (-n, rest)
    | _ => none

/-- A day, its parts separated by hyphens. -/
def readDate? (s : List Char) : Option (Date × List Char) := do
  let (year, s) ← readYear? s
  let (month, s) ← readField? (← afterSeparator? '-' s)
  let (day, s) ← readField? (← afterSeparator? '-' s)
  return (⟨year, month, day⟩, s)

/-- The letter or the space between a day and a time of day. -/
def isDaySeparator (c : Char) : Bool :=
  c == 'T' || c == 't' || c == ' '

/-- The digits of a number with zeros before them up to a given width. -/
def padded (width n : Nat) : String :=
  let digits := toString n
  String.ofList (List.replicate (width - digits.length) '0') ++ digits

/-- A year of four digits; a year outside those has a sign. -/
def yearText (year : Int) : String :=
  if 0 ≤ year && year ≤ 9999 then padded 4 year.toNat
  else (if year < 0 then "-" else "+") ++ padded 4 year.natAbs

end Time

namespace Instant

open Time

/--
The instant that a text names. Blanks may stand around the separators, and a second may be the
sixtieth of its minute.
-/
def ofText? (text : String) : Option Instant := do
  let (date, s) ← readDate? text.toList
  let s ← match s with
    | c :: rest => if isDaySeparator c then some rest else none
    | [] => none
  let (hour, s) ← readField? s
  let (minute, s) ← readField? (← afterSeparator? ':' s)
  let (second, s) ← readField? (← afterSeparator? ':' s)
  let (fraction, s) ← readFraction? s
  let (offset, s) ← readOffset? s
  if !(Text.trimStart s).isEmpty || !date.isValid || hour > 23 || minute > 59 || second > 60 ||
      offset.natAbs ≥ 86400 then none
  else
    -- A leap second belongs to the second before it.
    let (second, fraction) :=
      if second == 60 then (59, fraction + 1000000000) else (second, fraction)
    let seconds : Int :=
      date.dayNumber * 86400 + (hour * 3600 + minute * 60 + second : Nat) - offset
    -- The offset may lead out of the years that are counted.
    if (Date.ofDayNumber (seconds.fdiv 86400)).isValid then some ⟨seconds, fraction⟩ else none

/-- The day of an instant. -/
def date (t : Instant) : Date :=
  Date.ofDayNumber (t.seconds.fdiv 86400)

/-- Hour, minute and second of an instant; a leap second is the sixtieth of its minute. -/
def clockText (t : Instant) : String :=
  let ofDay := (t.seconds.fmod 86400).toNat
  let second := ofDay % 60 + t.nanoseconds / 1000000000
  padded 2 (ofDay / 3600) ++ ":" ++ padded 2 (ofDay / 60 % 60) ++ ":" ++ padded 2 second

/-- The day of an instant, its parts separated by hyphens. -/
def dateText (t : Instant) : String :=
  yearText t.date.year ++ "-" ++ padded 2 t.date.month ++ "-" ++ padded 2 t.date.day

/-- The part of a second with three, six or nine digits, whichever is enough, or none at all. -/
def fractionText (t : Instant) : String :=
  let n := t.nanoseconds % 1000000000
  if n == 0 then ""
  else if n % 1000000 == 0 then "." ++ padded 3 (n / 1000000)
  else if n % 1000 == 0 then "." ++ padded 6 (n / 1000)
  else "." ++ padded 9 n

/-- The text of an instant in documents. -/
def text (t : Instant) : String :=
  t.dateText ++ "T" ++ t.clockText ++ t.fractionText ++ "Z"

/-- The text of an instant for people, to the second. -/
def display (t : Instant) : String :=
  t.dateText ++ " " ++ t.clockText ++ " UTC"

end Instant

end Rollback
