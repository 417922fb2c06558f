import Rollback.Time.Instant

/-!
# The calendar

Days are counted from the start of 1970, and each number of days is that of one day of the calendar.
The calendar repeats itself after an era of 400 years. Years go from March to February here, so that
a leap day is the last day of its year.

- `yearOfEra_spec`: the year of an era that a day is in
- `marchDate`: the day of the calendar with a given place in such a year
- `dayNumber_ofDayNumber`: the number of the day with a given number
- `isValid_ofDayNumber`: such days are days of the calendar, within the years that are counted
-/

set_option autoImplicit false

namespace Rollback.Time

/-! ## Years -/

/-- The number of days of an era before one of its years. -/
def daysBeforeYear (year : Nat) : Nat :=
  365 * year + year / 4 - year / 100 + year / 400

/-- The year that a day of an era is in. -/
def yearOfEra (day : Nat) : Nat :=
  (day - day / 1460 + day / 36524 - day / 146096) / 365

theorem yearOfEra_mono {d e : Nat} (h : d ≤ e) : yearOfEra d ≤ yearOfEra e := by
  have leapYears : d - d / 1460 ≤ e - e / 1460 := by omega
  have centuries : d / 36524 - d / 146096 ≤ e / 36524 - e / 146096 := by omega
  refine Nat.div_le_div_right ?_
  omega

/-- The first and the last day of each year are in that year. -/
theorem yearOfEra_daysBeforeYear : ∀ year < 400,
    yearOfEra (daysBeforeYear year) = year ∧ yearOfEra (daysBeforeYear (year + 1) - 1) = year := by
  decide +kernel

/-- A day is not before the first day of its year and not after the last one. -/
theorem yearOfEra_spec {d : Nat} (h : d < 146097) :
    yearOfEra d < 400 ∧ daysBeforeYear (yearOfEra d) ≤ d ∧
      d < daysBeforeYear (yearOfEra d + 1) := by
  have last : yearOfEra 146096 = 399 := by decide
  have inEra : yearOfEra d < 400 := by
    have le := yearOfEra_mono (Nat.le_of_lt_succ h)
    omega
  refine ⟨inEra, ?_, ?_⟩
  · -- Days before the year are in the year before it or in earlier ones.
    refine Nat.le_of_not_lt fun before => ?_
    obtain ⟨year, eq⟩ : ∃ year, yearOfEra d = year + 1 := by
      refine Nat.exists_eq_succ_of_ne_zero fun zero => ?_
      rw [zero] at before
      exact absurd before (Nat.not_lt_zero d)
    have lastBefore := (yearOfEra_daysBeforeYear year (by omega)).2
    have le := yearOfEra_mono (Nat.le_sub_one_of_lt (eq ▸ before))
    omega
  · -- Days behind the year are in the year after it or in later ones.
    refine Nat.lt_of_not_le fun behind => ?_
    have le := yearOfEra_mono behind
    by_cases inside : yearOfEra d + 1 < 400
    · have firstBehind := (yearOfEra_daysBeforeYear _ inside).1
      omega
    · have end_ : yearOfEra d + 1 = 400 := by omega
      rw [end_, show daysBeforeYear 400 = 146097 from rfl] at behind
      omega

/-- A year has at most 366 days. -/
theorem daysBeforeYear_succ_le (year : Nat) :
    daysBeforeYear (year + 1) ≤ daysBeforeYear year + 366 := by
  -- Of the centuries, every fourth one has a leap day more.
  have centuries : (year + 1) / 400 + year / 100 ≤ (year + 1) / 100 + year / 400 := by
    rw [show 400 = 100 * 4 from rfl, ← Nat.div_div_eq_div_mul, ← Nat.div_div_eq_div_mul]
    omega
  have leapYears : (year + 1) / 4 ≤ year / 4 + 1 := by omega
  unfold daysBeforeYear
  omega

/-- The last day of a year that has 366 days is a leap day. -/
theorem isLeapYear_of_lastDay {era : Int} {year : Nat}
    (long : daysBeforeYear year + 365 < daysBeforeYear (year + 1)) :
    isLeapYear (era * 400 + year + 1) = true := by
  unfold daysBeforeYear at long
  simp only [isLeapYear, Bool.and_eq_true, Bool.or_eq_true, beq_iff_eq, bne_iff_ne, ne_eq]
  omega

/-! ## Months -/

/-- The month, counted from March, that a day of a year is in. -/
def marchMonth (dayOfYear : Nat) : Nat :=
  (5 * dayOfYear + 2) / 153

/-- The number of a month that is counted from March. -/
def monthNumber (marchMonth : Nat) : Nat :=
  if marchMonth < 10 then marchMonth + 3 else marchMonth - 9

/-- The day of the calendar in a year from March to February, given by the number of days of that
year before it. -/
def marchDate (year : Int) (dayOfYear : Nat) : Date :=
  let month := monthNumber (marchMonth dayOfYear)
  ⟨if month ≤ 2 then year + 1 else year, month,
    dayOfYear - daysBeforeMonth (marchMonth dayOfYear) + 1⟩

/-- A day is not before the first day of its month. -/
theorem daysBeforeMonth_le (dayOfYear : Nat) :
    daysBeforeMonth (marchMonth dayOfYear) ≤ dayOfYear := by
  unfold daysBeforeMonth marchMonth
  omega

theorem dayNumber_marchDate (year : Int) {dayOfYear : Nat} (h : dayOfYear ≤ 365) :
    (marchDate year dayOfYear).dayNumber =
      365 * year + year.fdiv 4 - year.fdiv 100 + year.fdiv 400 + dayOfYear - 719468 := by
  have le := daysBeforeMonth_le dayOfYear
  have last : marchMonth dayOfYear ≤ 11 := by
    unfold marchMonth
    omega
  have month : (monthNumber (marchMonth dayOfYear) + 9) % 12 = marchMonth dayOfYear := by
    unfold monthNumber
    split <;> omega
  have years : (if (marchDate year dayOfYear).month ≤ 2 then (marchDate year dayOfYear).year - 1
      else (marchDate year dayOfYear).year) = year := by
    by_cases early : monthNumber (marchMonth dayOfYear) ≤ 2
    · simp [marchDate, early]
    · simp [marchDate, early]
  rw [Date.dayNumber, years]
  simp only [marchDate, month]
  omega

/-- A month has as many days as the calendar gives it; only a leap day makes February longer. -/
theorem day_marchDate_le {year : Int} {dayOfYear : Nat} (h : dayOfYear ≤ 365)
    (leap : dayOfYear = 365 → isLeapYear (year + 1) = true) :
    (marchDate year dayOfYear).day ≤
      daysInMonth (marchDate year dayOfYear).year (marchDate year dayOfYear).month := by
  have place : marchMonth dayOfYear = (5 * dayOfYear + 2) / 153 := rfl
  have day : (marchDate year dayOfYear).day =
      dayOfYear - (153 * marchMonth dayOfYear + 2) / 5 + 1 := rfl
  have month : (marchDate year dayOfYear).month =
      if marchMonth dayOfYear < 10 then marchMonth dayOfYear + 3
      else marchMonth dayOfYear - 9 := rfl
  by_cases february : (marchDate year dayOfYear).month = 2
  · have year_ : (marchDate year dayOfYear).year = year + 1 :=
      if_pos (Nat.le_of_eq february)
    have eleventh : marchMonth dayOfYear = 11 := by
      split at month <;> omega
    rw [daysInMonth, february, year_, day, eleventh]
    by_cases last : dayOfYear = 365
    · simp [last, leap last]
    · have shorter : dayOfYear - (153 * 11 + 2) / 5 + 1 ≤ 28 := by omega
      simp only [beq_self_eq_true, if_true]
      split <;> omega
  · rw [daysInMonth, if_neg (by simpa using february)]
    split
    · rename_i short
      simp only [Bool.or_eq_true, beq_iff_eq] at short
      split at month <;> omega
    · omega

theorem month_marchDate (year : Int) {dayOfYear : Nat} (h : dayOfYear ≤ 365) :
    1 ≤ (marchDate year dayOfYear).month ∧ (marchDate year dayOfYear).month ≤ 12 := by
  have last : marchMonth dayOfYear ≤ 11 := by
    unfold marchMonth
    omega
  show 1 ≤ monthNumber (marchMonth dayOfYear) ∧ monthNumber (marchMonth dayOfYear) ≤ 12
  unfold monthNumber
  split <;> omega

/-! ## Numbers of days -/

/-- The day with a given number lies in a year of an era. -/
theorem ofDayNumber_eq_marchDate (n : Int) : ∃ (era : Int) (year dayOfYear : Nat),
    Date.ofDayNumber n = marchDate (era * 400 + year) dayOfYear ∧ dayOfYear ≤ 365 ∧
      (dayOfYear = 365 → isLeapYear (era * 400 + year + 1) = true) ∧ year < 400 ∧
      n + 719468 = era * 146097 + daysBeforeYear year + dayOfYear := by
  have rest : (n + 719468) % 146097 < 146097 := Int.emod_lt_of_pos _ (by decide)
  have nonneg : 0 ≤ (n + 719468) % 146097 := Int.emod_nonneg _ (by decide)
  obtain ⟨d, eq⟩ := Int.eq_ofNat_of_zero_le nonneg
  obtain ⟨inEra, first, last⟩ := yearOfEra_spec (d := d) (by omega)
  have noCentury : yearOfEra d / 400 = 0 := Nat.div_eq_of_lt inEra
  refine ⟨(n + 719468) / 146097, yearOfEra d, d - daysBeforeYear (yearOfEra d),
    ?_, ?_, ?_, inEra, ?_⟩
  · have day : ((n + 719468).fmod 146097).toNat = d := by
      rw [Int.fmod_eq_emod_of_nonneg _ (by decide), eq]
      rfl
    have before : daysBeforeYear (yearOfEra d) =
        365 * yearOfEra d + yearOfEra d / 4 - yearOfEra d / 100 := by
      rw [daysBeforeYear, noCentury, Nat.add_zero]
    have shape : ∀ day, ((n + 719468).fmod 146097).toNat = day → Date.ofDayNumber n =
        marchDate ((n + 719468).fdiv 146097 * 400 + yearOfEra day)
          (day - (365 * yearOfEra day + yearOfEra day / 4 - yearOfEra day / 100)) := by
      rintro _ rfl
      rfl
    rw [shape d day, before, Int.fdiv_eq_ediv_of_nonneg _ (by decide)]
  · have long := daysBeforeYear_succ_le (yearOfEra d)
    omega
  · intro leap
    exact isLeapYear_of_lastDay (by omega)
  · omega

/-- The day with a given number has that number. -/
theorem dayNumber_ofDayNumber (n : Int) : (Date.ofDayNumber n).dayNumber = n := by
  obtain ⟨era, year, dayOfYear, eq, inYear, -, inEra, number⟩ := ofDayNumber_eq_marchDate n
  rw [eq, dayNumber_marchDate _ inYear, Int.fdiv_eq_ediv_of_nonneg _ (by decide),
    Int.fdiv_eq_ediv_of_nonneg _ (by decide), Int.fdiv_eq_ediv_of_nonneg _ (by decide)]
  unfold daysBeforeYear at number
  omega

/-- A day with a given number is one of the calendar, if its year is counted. -/
theorem isValid_ofDayNumber {n : Int} (h : -262143 ≤ (Date.ofDayNumber n).year ∧
    (Date.ofDayNumber n).year ≤ 262142) : (Date.ofDayNumber n).isValid = true := by
  obtain ⟨era, year, dayOfYear, eq, inYear, leap, -⟩ := ofDayNumber_eq_marchDate n
  rw [eq] at h ⊢
  have month := month_marchDate (era * 400 + year) inYear
  have day := day_marchDate_le inYear leap
  have first : 1 ≤ (marchDate (era * 400 + year) dayOfYear).day := Nat.succ_pos _
  simp only [Date.isValid, Bool.and_eq_true, decide_eq_true_eq]
  exact ⟨⟨⟨⟨⟨h.1, h.2⟩, month.1⟩, month.2⟩, first⟩, day⟩

end Rollback.Time
