import Rollback.Proofs.Text.Digits
import Rollback.Proofs.Time.Calendar

/-!
# Texts of instants

An instant is read from the text that is written for it, with all of its nanoseconds, and whatever
is read is an instant that can be written and read again.

- `Instant.Valid`: instants within the years that are counted
- `readDate?_texts`: a date is read from the texts of its parts
- `Instant.ofText?_text`: an instant is read from its text
- `Instant.valid_of_ofText?`: an instant that is read is valid
-/

set_option autoImplicit false

namespace Rollback

/-- An instant within the years that are counted. Only the last second of a minute can be followed
by a leap second. -/
structure Instant.Valid (t : Instant) : Prop where
  year : -262143 ≤ t.date.year ∧ t.date.year ≤ 262142
  nanoseconds : t.nanoseconds < 1000000000 ∨ t.nanoseconds < 2000000000 ∧ t.seconds % 60 = 59

namespace Time

open Text (EndsDigits endsDigits_cons)

/-! ## Numbers -/

theorem toList_padded (width n : Nat) : (padded width n).toList =
    List.replicate (width - (Nat.toDigits 10 n).length) '0' ++ Nat.toDigits 10 n := by
  have digits : toString n = String.ofList (Nat.toDigits 10 n) := Nat.toString_eq_ofList_toDigits
  rw [padded, digits, String.toList_append, String.toList_ofList, String.toList_ofList,
    String.length_ofList]

theorem isDigit_of_mem_padded {width n : Nat} :
    ∀ c ∈ (padded width n).toList, c.isDigit = true := by
  intro c mem
  rw [toList_padded, List.mem_append] at mem
  rcases mem with zero | digit
  · rw [List.eq_of_mem_replicate zero]
    decide
  · exact Text.isDigit_of_mem_toDigits digit

/-- A number that is not too large fills its width. -/
theorem length_padded {width n : Nat} (positive : 0 < width) (h : n < 10 ^ width) :
    (padded width n).toList.length = width := by
  have short := (Nat.length_toDigits_le_iff (by decide) positive).2 h
  rw [toList_padded, List.length_append, List.length_replicate]
  omega

/-- Zeros before a number do not change it. -/
theorem ofDigitChars_padded (width n : Nat) :
    Nat.ofDigitChars 10 (padded width n).toList 0 = n := by
  rw [toList_padded, Nat.ofDigitChars_append, Nat.ofDigitChars_replicate_zero, Nat.mul_zero,
    Nat.ofDigitChars_ten_toDigits]

theorem exists_padded (width n : Nat) :
    ∃ c more, (padded width n).toList = c :: more ∧ c.isDigit = true := by
  cases shape : (padded width n).toList with
  | nil =>
    rw [toList_padded] at shape
    exact absurd (List.append_eq_nil_iff.1 shape).2 Nat.toDigits_ne_nil
  | cons c more => exact ⟨c, more, rfl, isDigit_of_mem_padded c (shape ▸ List.mem_cons_self)⟩

theorem trimStart_padded (width n : Nat) (rest : List Char) :
    Text.trimStart ((padded width n).toList ++ rest) = (padded width n).toList ++ rest := by
  obtain ⟨c, more, shape, digit⟩ := exists_padded width n
  rw [shape, List.cons_append, Text.trimStart_of_isDigit digit]

/-- The digits at the start of a text stand for the number that is read. -/
theorem readNumber?_eq (most : Nat) (s : List Char) :
    readNumber? most s =
      if ((s.take most).takeWhile Char.isDigit).isEmpty then none
      else some (Nat.ofDigitChars 10 ((s.take most).takeWhile Char.isDigit) 0,
        s.drop ((s.take most).takeWhile Char.isDigit).length) := by
  have swap : (fun (n : Nat) (c : Char) => n * 10 + (c.toNat - '0'.toNat)) =
      fun n c => 10 * n + (c.toNat - '0'.toNat) := by
    funext n c
    rw [Nat.mul_comm]
  rw [readNumber?, swap, ← Nat.ofDigitChars_eq_foldl]

/-- A number is read from its digits and the zeros before them, if they are not too many. -/
theorem readNumber?_padded {most width n : Nat} {rest : List Char}
    (fits : (padded width n).toList.length ≤ most) (ends : EndsDigits rest) :
    readNumber? most ((padded width n).toList ++ rest) = some (n, rest) := by
  obtain ⟨c, more, shape, -⟩ := exists_padded width n
  have short : EndsDigits (rest.take (most - (padded width n).toList.length)) := by
    intro c mem
    rw [List.head?_take] at mem
    split at mem
    · cases mem
    · exact ends c mem
  have digits : (((padded width n).toList ++ rest).take most).takeWhile Char.isDigit =
      (padded width n).toList := by
    rw [List.take_append, List.take_of_length_le fits,
      Text.takeWhile_isDigit_append isDigit_of_mem_padded short]
  have nonempty : (padded width n).toList.isEmpty = false := by rw [shape]; rfl
  rw [readNumber?_eq, digits, nonempty, ofDigitChars_padded, List.drop_left]
  rfl

theorem readField?_padded {n : Nat} (h : n < 100) {rest : List Char} (ends : EndsDigits rest) :
    readField? ((padded 2 n).toList ++ rest) = some (n, rest) := by
  rw [readField?, trimStart_padded]
  exact readNumber?_padded (Nat.le_of_eq (length_padded (by decide) h)) ends

/-- A number that is read has a run of digits, and it is not larger than they allow. -/
theorem readNumber?_spec {most n : Nat} {s rest : List Char}
    (h : readNumber? most s = some (n, rest)) :
    ∃ count ≤ most, count + rest.length = s.length ∧ n < 10 ^ count := by
  have fits : ((s.take most).takeWhile Char.isDigit).length ≤ (s.take most).length :=
    (List.takeWhile_sublist _).length_le
  rw [List.length_take] at fits
  have inside : ∀ c ∈ (s.take most).takeWhile Char.isDigit, c.isDigit = true :=
    List.all_eq_true.1 (List.all_takeWhile ..)
  have below := Text.ofDigitChars_lt inside 0
  rw [readNumber?_eq] at h
  split at h
  · cases h
  · obtain ⟨rfl, rfl⟩ := Prod.mk.inj (Option.some.inj h)
    refine ⟨((s.take most).takeWhile Char.isDigit).length, by omega, ?_, by omega⟩
    rw [List.length_drop]
    omega

/-! ## Days -/

theorem trimStart_cons {c : Char} (solid : Text.isBlank c = false) (rest : List Char) :
    Text.trimStart (c :: rest) = c :: rest :=
  List.dropWhile_cons_of_neg (by rw [solid]; exact Bool.false_ne_true)

/-- A separator without blanks before it is read. -/
theorem afterSeparator?_cons {c : Char} (solid : Text.isBlank c = false) (rest : List Char) :
    afterSeparator? c (c :: rest) = some rest := by
  rw [afterSeparator?, trimStart_cons solid]
  exact if_pos (beq_self_eq_true c)

/-- A year with a minus sign is negative, and may have any number of digits. -/
theorem readYear?_minus (s : List Char) :
    readYear? ('-' :: s) = (readNumber? s.length s).map fun (n, rest) => (-n, rest) := by
  rw [readYear?, trimStart_cons (by decide)]
  rfl

theorem readYear?_plus (s : List Char) :
    readYear? ('+' :: s) = (readNumber? s.length s).map fun (n, rest) => (n, rest) := by
  rw [readYear?, trimStart_cons (by decide)]
  rfl

/-- A year without a sign has four digits at most. -/
theorem readYear?_digits {c : Char} (digit : c.isDigit = true) (s : List Char) :
    readYear? (c :: s) = (readNumber? 4 (c :: s)).map fun (n, rest) => (n, rest) := by
  rw [readYear?, Text.trimStart_of_isDigit digit]
  split
  · rename_i eq
    exact absurd ((List.cons.inj eq).1 ▸ digit) (by decide)
  · rename_i eq
    exact absurd ((List.cons.inj eq).1 ▸ digit) (by decide)
  · rfl

/-- A year is read from its text, with or without a sign. -/
theorem readYear?_yearText (year : Int) {rest : List Char} (ends : EndsDigits rest) :
    readYear? ((yearText year).toList ++ rest) = some (year, rest) := by
  have signed : ∀ n, readNumber? ((padded 4 n).toList ++ rest).length
      ((padded 4 n).toList ++ rest) = some (n, rest) := fun n =>
    readNumber?_padded (by rw [List.length_append]; omega) ends
  unfold yearText
  split
  · rename_i fourDigits
    simp only [Bool.and_eq_true, decide_eq_true_eq] at fourDigits
    obtain ⟨c, more, shape, digit⟩ := exists_padded 4 year.toNat
    have unsigned : readNumber? 4 ((padded 4 year.toNat).toList ++ rest) =
        some (year.toNat, rest) :=
      readNumber?_padded (Nat.le_of_eq (length_padded (by decide) (by omega))) ends
    have value : (year.toNat : Int) = year := Int.toNat_of_nonneg fourDigits.1
    rw [shape, List.cons_append] at unsigned ⊢
    rw [readYear?_digits digit, unsigned]
    exact congrArg (fun year => some (year, rest)) value
  · rename_i notFour
    simp only [Bool.and_eq_true, decide_eq_true_eq] at notFour
    rw [String.toList_append, List.append_assoc]
    split
    · have value : (-(year.natAbs : Int)) = year := by omega
      rw [show "-".toList = ['-'] from rfl, List.singleton_append, readYear?_minus, signed]
      exact congrArg (fun year => some (year, rest)) value
    · have value : (year.natAbs : Int) = year := by omega
      rw [show "+".toList = ['+'] from rfl, List.singleton_append, readYear?_plus, signed]
      exact congrArg (fun year => some (year, rest)) value

/-- A date is read from the texts of its parts. -/
theorem readDate?_texts {d : Date} (valid : d.isValid = true) {rest : List Char}
    (ends : EndsDigits rest) :
    readDate? ((yearText d.year).toList ++ '-' :: ((padded 2 d.month).toList ++
      '-' :: ((padded 2 d.day).toList ++ rest))) = some (d, rest) := by
  have longest : daysInMonth d.year d.month ≤ 31 := by
    unfold daysInMonth
    split <;> split <;> decide
  simp only [Date.isValid, Bool.and_eq_true, decide_eq_true_eq] at valid
  have hyphen : ∀ rest, EndsDigits ('-' :: rest) := endsDigits_cons (by decide)
  simp only [readDate?, readYear?_yearText d.year (hyphen _),
    afterSeparator?_cons (c := '-') (by decide), readField?_padded (n := d.month) (by omega)
      (hyphen _),
    readField?_padded (n := d.day) (by omega) ends, Option.bind_eq_bind, Option.bind_some]
  rfl

/-! ## Parts of a second -/

/-- A number of nanoseconds is read from those of its digits that come before the zeros at
its end. -/
theorem readFraction?_padded {width n : Nat} (positive : 0 < width) (most : width ≤ 9)
    (h : n < 10 ^ width) {rest : List Char} (ends : EndsDigits rest) :
    readFraction? ('.' :: ((padded width n).toList ++ rest)) =
      some (n * 10 ^ (9 - width), rest) := by
  have length := length_padded positive h
  have count : ((padded width n).toList ++ rest).length - rest.length = width := by
    rw [List.length_append, length]
    omega
  have after : rest.dropWhile Char.isDigit = rest :=
    Text.dropWhile_isDigit_append (List.forall_mem_nil _) ends
  simp only [readFraction?, readNumber?_padded (length ▸ most) ends, Option.bind_eq_bind,
    Option.bind_some, count, after]
  rfl

/-- The nanoseconds of a second are read from the digits that are written for them. -/
theorem readFraction?_fractionText (t : Instant) :
    readFraction? (t.fractionText.toList ++ ['Z']) = some (t.nanoseconds % 1000000000, ['Z']) := by
  have bound : t.nanoseconds % 1000000000 < 1000000000 := Nat.mod_lt _ (by decide)
  have ends : EndsDigits ['Z'] := endsDigits_cons (by decide) []
  have fraction : ∀ {width k : Nat}, 0 < width → width ≤ 9 → k < 10 ^ width →
      k * 10 ^ (9 - width) = t.nanoseconds % 1000000000 →
      readFraction? (("." ++ padded width k).toList ++ ['Z']) =
        some (t.nanoseconds % 1000000000, ['Z']) := by
    intro width k positive most small value
    rw [String.toList_append, show ".".toList = ['.'] from rfl, List.singleton_append,
      List.cons_append, readFraction?_padded positive most small ends, value]
  unfold Instant.fractionText
  dsimp only
  -- As few groups of three digits are written as keep the nanoseconds.
  split
  · rename_i zero
    rw [beq_iff_eq.1 zero]
    rfl
  · split
    · rename_i millis
      rw [beq_iff_eq] at millis
      exact fraction (by decide) (by decide) (by omega) (by omega)
    · split
      · rename_i micros
        rw [beq_iff_eq] at micros
        exact fraction (by decide) (by decide) (by omega) (by omega)
      · exact fraction (by decide) (by decide) bound (Nat.mul_one _)

/-- The fraction that is read is less than a second. -/
theorem lt_of_readFraction? {s rest : List Char} {n : Nat} (h : readFraction? s = some (n, rest)) :
    n < 1000000000 := by
  unfold readFraction? at h
  split at h
  · rename_i digits
    obtain ⟨⟨k, after⟩, read, h⟩ := Option.bind_eq_some_iff.1 h
    obtain ⟨rfl, -⟩ := Prod.mk.inj (Option.some.inj h)
    obtain ⟨count, most, length, below⟩ := readNumber?_spec read
    have used : digits.length - after.length = count := by omega
    rw [used]
    calc
      k * 10 ^ (9 - count) < 10 ^ count * 10 ^ (9 - count) :=
        Nat.mul_lt_mul_of_pos_right below (Nat.pow_pos (by decide))
      _ = 10 ^ 9 := by rw [← Nat.pow_add, Nat.add_sub_cancel' most]
  · obtain ⟨rfl, -⟩ := Prod.mk.inj (Option.some.inj h)
    decide

/-! ## Offsets -/

/-- An offset is a number of minutes. -/
theorem readHoursAndMinutes?_mod {s rest : List Char} {n : Nat}
    (h : readHoursAndMinutes? s = some (n, rest)) : n % 60 = 0 := by
  obtain ⟨⟨hours, s⟩, -, h⟩ := Option.bind_eq_some_iff.1 h
  obtain ⟨⟨minutes, s⟩, -, h⟩ := Option.bind_eq_some_iff.1 h
  dsimp only at h
  split at h
  · obtain ⟨rfl, -⟩ := Prod.mk.inj (Option.some.inj h)
    omega
  · cases h

/-- An offset is a number of minutes. -/
theorem readOffset?_mod {s rest : List Char} {n : Int} (h : readOffset? s = some (n, rest)) :
    n % 60 = 0 := by
  have signed : ∀ sign : Nat → Int, (∀ k, k % 60 = 0 → sign k % 60 = 0) → ∀ s : List Char,
      ((readHoursAndMinutes? s).map fun (k, rest) => (sign k, rest)) = some (n, rest) →
        n % 60 = 0 := by
    intro sign whole s h
    obtain ⟨⟨k, after⟩, read, same⟩ := Option.map_eq_some_iff.1 h
    obtain ⟨rfl, -⟩ := Prod.mk.inj same
    exact whole k (readHoursAndMinutes?_mod read)
  have ahead := signed (fun k => (k : Int)) fun k whole => by omega
  have behind := signed (fun k => -(k : Int)) fun k whole => by omega
  have utc : ∀ {s : List Char}, some ((0 : Int), s) = some (n, rest) → n % 60 = 0 := by
    intro s h
    obtain ⟨rfl, -⟩ := Prod.mk.inj (Option.some.inj h)
    rfl
  unfold readOffset? at h
  dsimp only at h
  split at h
  · exact utc h
  · split at h
    · exact utc h
    · exact utc h
    · exact ahead _ h
    · exact behind _ h
    · exact behind _ h
    · cases h

end Time

/-! ## Instants -/

namespace Instant

open Time
open Text (EndsDigits endsDigits_cons)

theorem toList_text (t : Instant) : t.text.toList =
    (yearText t.date.year).toList ++ '-' :: ((padded 2 t.date.month).toList ++
      '-' :: ((padded 2 t.date.day).toList ++ 'T' :: (t.clockText.toList ++
        (t.fractionText.toList ++ ['Z'])))) := by
  simp [text, dateText]

theorem toList_clockText (t : Instant) : t.clockText.toList =
    (padded 2 ((t.seconds.fmod 86400).toNat / 3600)).toList ++
      ':' :: ((padded 2 ((t.seconds.fmod 86400).toNat / 60 % 60)).toList ++
        ':' ::
          (padded 2 ((t.seconds.fmod 86400).toNat % 60 + t.nanoseconds / 1000000000)).toList) := by
  simp [clockText]

/-- No digits follow the second, because its parts stand behind a point. -/
theorem endsDigits_fractionText (t : Instant) : EndsDigits (t.fractionText.toList ++ ['Z']) := by
  have point : ∀ text : String, EndsDigits (("." ++ text).toList ++ ['Z']) := by
    intro text
    rw [String.toList_append, show ".".toList = ['.'] from rfl, List.singleton_append]
    exact endsDigits_cons (by decide) _
  unfold fractionText
  dsimp only
  split
  · exact endsDigits_cons (by decide) []
  · split
    · exact point _
    · split
      · exact point _
      · exact point _

/-- The letter Z is no offset at all. -/
theorem readOffset?_utc : readOffset? ['Z'] = some (0, []) := by decide

/-- A second and its nanoseconds, where a leap second is part of the second before it. -/
def leaped (second fraction : Nat) : Nat × Nat :=
  if second == 60 then (59, fraction + 1000000000) else (second, fraction)

/-- The instant with the given date, time of day and offset. -/
def ofParts? (date : Date) (hour minute second fraction : Nat) (offset : Int) : Option Instant :=
  let seconds : Int :=
    date.dayNumber * 86400 + (hour * 3600 + minute * 60 + (leaped second fraction).1 : Nat) - offset
  if (Date.ofDayNumber (seconds.fdiv 86400)).isValid then some ⟨seconds, (leaped second fraction).2⟩
  else none

/-- An instant is read from its text. -/
theorem ofText?_text {t : Instant} (h : t.Valid) : ofText? t.text = some t := by
  have ofDay : ((t.seconds.fmod 86400).toNat : Int) = t.seconds % 86400 := by
    rw [Int.fmod_eq_emod_of_nonneg _ (by decide)]
    exact Int.toNat_of_nonneg (Int.emod_nonneg _ (by decide))
  have inDay : t.seconds % 86400 < 86400 := Int.emod_lt_of_pos _ (by decide)
  have valid : t.date.isValid = true := isValid_ofDayNumber h.year
  have number : t.date.dayNumber = t.seconds / 86400 := by
    rw [date, dayNumber_ofDayNumber, Int.fdiv_eq_ediv_of_nonneg _ (by decide)]
  have colon : ∀ rest, EndsDigits (':' :: rest) := endsDigits_cons (by decide)
  generalize hDay : (t.seconds.fmod 86400).toNat = day at ofDay
  have leap : leaped (day % 60 + t.nanoseconds / 1000000000) (t.nanoseconds % 1000000000) =
      (day % 60, t.nanoseconds) := by
    unfold leaped
    split
    · rename_i sixtieth
      rw [beq_iff_eq] at sixtieth
      rcases h.nanoseconds with plain | ⟨leap, last⟩ <;> exact Prod.ext (by omega) (by omega)
    · rename_i other
      rw [beq_iff_eq] at other
      rcases h.nanoseconds with plain | ⟨leap, last⟩ <;> exact Prod.ext (by omega) (by omega)
  have second : day % 60 + t.nanoseconds / 1000000000 ≤ 60 := by
    rcases h.nanoseconds with plain | ⟨leap, last⟩ <;> omega
  have parts : ofParts? t.date (day / 3600) (day / 60 % 60) (day % 60 + t.nanoseconds / 1000000000)
      (t.nanoseconds % 1000000000) 0 = some t := by
    have whole : t.date.dayNumber * 86400 +
        (day / 3600 * 3600 + day / 60 % 60 * 60 + day % 60 : Nat) - 0 = t.seconds := by omega
    simp only [ofParts?, leap, whole]
    exact if_pos valid
  rw [ofText?, toList_text, readDate?_texts valid (endsDigits_cons (by decide) _), toList_clockText,
    hDay]
  simp only [Option.bind_eq_bind, Option.bind_some, List.append_assoc, List.cons_append,
    show isDaySeparator 'T' = true from rfl, if_true,
    readField?_padded (n := day / 3600) (by omega) (colon _),
    readField?_padded (n := day / 60 % 60) (by omega) (colon _),
    afterSeparator?_cons (c := ':') (by decide),
    readField?_padded (n := day % 60 + t.nanoseconds / 1000000000) (by omega)
      (endsDigits_fractionText t),
    readFraction?_fractionText, readOffset?_utc]
  rw [if_neg]
  · exact parts
  simp only [valid, Bool.or_eq_true, decide_eq_true_eq, Bool.not_true, Bool.false_eq_true, or_false]
  rintro ((((blank | hour) | minute) | sixtieth) | offset)
  · exact absurd blank (by decide)
  · omega
  · omega
  · omega
  · exact absurd offset (by decide)

/-- An instant with a given date, time of day and offset is valid. -/
theorem valid_of_ofParts? {date : Date} {hour minute second fraction : Nat} {offset : Int}
    {t : Instant} (inSecond : fraction < 1000000000)
    (minutes : offset % 60 = 0) (h : ofParts? date hour minute second fraction offset = some t) :
    t.Valid := by
  unfold ofParts? at h
  dsimp only at h
  split at h
  · rename_i valid
    obtain rfl := Option.some.inj h
    simp only [Date.isValid, Bool.and_eq_true, decide_eq_true_eq] at valid
    refine ⟨⟨valid.1.1.1.1.1, valid.1.1.1.1.2⟩, ?_⟩
    unfold leaped
    split
    · -- An offset of whole minutes leaves the second at the end of its minute.
      refine .inr ⟨?_, ?_⟩
      · show fraction + 1000000000 < 2000000000
        omega
      · show (date.dayNumber * 86400 + (hour * 3600 + minute * 60 + 59 : Nat) - offset) % 60 = 59
        omega
    · exact .inl inSecond
  · cases h

/-- An instant that is read is valid. -/
theorem valid_of_ofText? {text : String} {t : Instant} (h : ofText? text = some t) : t.Valid := by
  obtain ⟨⟨date, s⟩, -, h⟩ := Option.bind_eq_some_iff.1 h
  cases s with
  | nil => cases h
  | cons c s =>
    dsimp only at h
    split at h
    · obtain ⟨s, -, h⟩ := Option.bind_eq_some_iff.1 h
      obtain ⟨⟨hour, s⟩, -, h⟩ := Option.bind_eq_some_iff.1 h
      obtain ⟨s, -, h⟩ := Option.bind_eq_some_iff.1 h
      obtain ⟨⟨minute, s⟩, -, h⟩ := Option.bind_eq_some_iff.1 h
      obtain ⟨s, -, h⟩ := Option.bind_eq_some_iff.1 h
      obtain ⟨⟨second, s⟩, -, h⟩ := Option.bind_eq_some_iff.1 h
      obtain ⟨⟨fraction, s⟩, inSecond, h⟩ := Option.bind_eq_some_iff.1 h
      obtain ⟨⟨offset, s⟩, minutes, h⟩ := Option.bind_eq_some_iff.1 h
      dsimp only at h
      split at h
      · cases h
      · exact valid_of_ofParts? (lt_of_readFraction? inSecond) (readOffset?_mod minutes) h
    · cases h

end Instant

end Rollback
