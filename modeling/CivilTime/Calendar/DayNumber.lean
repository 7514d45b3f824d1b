import CivilTime.Calendar.Date

/-!
# Day numbers

Days are counted from 1970-01-01, which is day 0.  The ordinal of a day
counts from 0001-01-01, which is day 1; the two counts differ by
`epochOrdinal`.

* `Date.dayNumber` numbers a date: the days of the years before it, of the
  months before it in its year, and its day of the month.
* `Date.ofDayNumber` undoes that.  The year comes from cutting the count into
  cycles of 400, 100, 4 and 1 years (`yearOfOrdinal`), the month from the day
  of the year (`monthOfYearDay`).

Both are total: they extend the calendar to all years in both directions.
From March on, the months have 153 days in every run of five, which is the
fraction in `daysBeforeMonth` and in `monthOfYearDay`.
-/

namespace CivilTime

/-- The ordinal of 1970-01-01. -/
def epochOrdinal : Int := 719163

/-- The days between 0001-01-01 and the first day of a year. -/
def daysBeforeYear (year : Int) : Int :=
  365 * (year - 1) + (year - 1) / 4 - (year - 1) / 100 + (year - 1) / 400

/-- The days of a year before the first of a month. -/
def daysBeforeMonth (year month : Int) : Int :=
  if month ≤ 2 then 31 * (month - 1)
  else 59 + leapDay year + (153 * (month - 3) + 2) / 5

/-- The year of an ordinal.  The last day of a leap cycle would start a fifth
century or a fifth year of the cycle; it belongs to the fourth. -/
def yearOfOrdinal (ordinal : Int) : Int :=
  let cycle := (ordinal - 1) / 146097
  let inCycle := (ordinal - 1) % 146097
  let century := min (inCycle / 36524) 3
  let inCentury := inCycle - 36524 * century
  let leapSpan := inCentury / 1461
  let inSpan := inCentury % 1461
  let year := min (inSpan / 365) 3
  400 * cycle + 100 * century + 4 * leapSpan + year + 1

/-- The month that holds a day of the year, counted from zero. -/
def monthOfYearDay (year day : Int) : Int :=
  if day < 31 then 1
  else if day < 59 + leapDay year then 2
  else (5 * (day - 59 - leapDay year) + 2) / 153 + 3

namespace Date

/-- The ordinal of a date: 0001-01-01 is 1. -/
def ordinal (date : Date) : Int :=
  daysBeforeYear date.year + daysBeforeMonth date.year date.month + date.day

/-- The date of an ordinal. -/
def ofOrdinal (ordinal : Int) : Date :=
  let year := yearOfOrdinal ordinal
  let yearDay := ordinal - 1 - daysBeforeYear year
  let month := monthOfYearDay year yearDay
  { year, month, day := yearDay - daysBeforeMonth year month + 1 }

/-- The number of a date's day: 1970-01-01 is 0. -/
def dayNumber (date : Date) : Int :=
  date.ordinal - epochOrdinal

/-- The date of a day number. -/
def ofDayNumber (day : Int) : Date :=
  ofOrdinal (day + epochOrdinal)

end Date

/-! ## The calendar in numbers -/

/-- A year is as long as its days say. -/
theorem daysBeforeYear_succ (year : Int) :
    daysBeforeYear (year + 1) = daysBeforeYear year + 365 + leapDay year := by
  unfold daysBeforeYear leapDay isLeapYear
  simp only [Bool.and_eq_true, Bool.or_eq_true, decide_eq_true_eq]
  split <;> omega

/-- Cutting a count of days into leap cycles: the parts, each within its
range, and the day within the span of four years. -/
theorem yearOfOrdinal_parts (ordinal : Int) :
    ∃ cycle century leapSpan year day : Int,
      yearOfOrdinal ordinal = 400 * cycle + 100 * century + 4 * leapSpan + year + 1 ∧
      ordinal - 1 = 146097 * cycle + 36524 * century + 1461 * leapSpan + 365 * year + day ∧
      0 ≤ century ∧ century ≤ 3 ∧ 0 ≤ leapSpan ∧ leapSpan ≤ 24 ∧ 0 ≤ year ∧ year ≤ 3 ∧
      0 ≤ day ∧ (day < 365 ∨ day = 365 ∧ year = 3 ∧ (leapSpan < 24 ∨ century = 3)) := by
  refine ⟨_, _, _, _,
    ((ordinal - 1) % 146097 - 36524 * min ((ordinal - 1) % 146097 / 36524) 3) % 1461 -
      365 * min (((ordinal - 1) % 146097 -
        36524 * min ((ordinal - 1) % 146097 / 36524) 3) % 1461 / 365) 3, rfl, ?_⟩
  have hbounds : 0 ≤ (ordinal - 1) % 146097 ∧ (ordinal - 1) % 146097 < 146097 := by omega
  have hcut : ordinal - 1 = 146097 * ((ordinal - 1) / 146097) + (ordinal - 1) % 146097 := by omega
  generalize (ordinal - 1) % 146097 = inCycle at *
  generalize (ordinal - 1) / 146097 = cycle at *
  refine ⟨by omega, by omega, by omega, by omega, by omega, by omega, by omega, by omega, ?_⟩
  omega

/-- The ordinal lies in the year that `yearOfOrdinal` finds. -/
theorem yearOfOrdinal_bounds (ordinal : Int) :
    daysBeforeYear (yearOfOrdinal ordinal) < ordinal ∧
      ordinal ≤ daysBeforeYear (yearOfOrdinal ordinal + 1) := by
  obtain ⟨cycle, century, leapSpan, year, day, hyear, hordinal, hbounds⟩ :=
    yearOfOrdinal_parts ordinal
  have hquarter : (400 * cycle + 100 * century + 4 * leapSpan + year) / 4 =
      100 * cycle + 25 * century + leapSpan := by omega
  have hhundredth : (400 * cycle + 100 * century + 4 * leapSpan + year) / 100 =
      4 * cycle + century := by omega
  have hcycles : (400 * cycle + 100 * century + 4 * leapSpan + year) / 400 = cycle := by omega
  rw [daysBeforeYear_succ, hyear, daysBeforeYear, leapDay, isLeapYear]
  simp only [Int.add_sub_cancel, hquarter, hhundredth, hcycles, Bool.and_eq_true,
    Bool.or_eq_true, decide_eq_true_eq]
  refine ⟨by omega, ?_⟩
  split <;> omega

end CivilTime
