/-!
# Calendar dates

The proleptic Gregorian calendar: leap years, the lengths of the months, and
a date as three integers.

* `isLeapYear` and `monthLength` are the rules of the calendar.
* `Date` holds a year, a month and a day without any promise about them, so
  that arithmetic can pass through dates that do not exist.
* `Date.Valid` is the promise: years 1 to 9999, months 1 to 12, and days up
  to the length of the month.  It is decidable.
-/

namespace CivilTime

/-- A year divisible by 4 is a leap year, except for the centuries that are
not divisible by 400. -/
def isLeapYear (year : Int) : Bool :=
  year % 4 = 0 && (year % 100 ≠ 0 || year % 400 = 0)

/-- The one day by which a leap year is longer, and zero in a common year. -/
def leapDay (year : Int) : Int :=
  if isLeapYear year then 1 else 0

/-- The number of days of a month, for months 1 to 12. -/
def monthLength (year month : Int) : Int :=
  if month = 2 then 28 + leapDay year
  else if month = 4 ∨ month = 6 ∨ month = 9 ∨ month = 11 then 30
  else 31

/-- A calendar date, valid or not. -/
structure Date where
  year : Int
  month : Int
  day : Int
  deriving DecidableEq, Repr, Inhabited

namespace Date

/-- The dates that exist: from 0001-01-01 to 9999-12-31. -/
structure Valid (date : Date) : Prop where
  year_ge : 1 ≤ date.year
  year_le : date.year ≤ 9999
  month_ge : 1 ≤ date.month
  month_le : date.month ≤ 12
  day_ge : 1 ≤ date.day
  day_le : date.day ≤ monthLength date.year date.month

instance (date : Date) : Decidable date.Valid :=
  decidable_of_iff
    (1 ≤ date.year ∧ date.year ≤ 9999 ∧ 1 ≤ date.month ∧ date.month ≤ 12 ∧
      1 ≤ date.day ∧ date.day ≤ monthLength date.year date.month)
    ⟨fun ⟨hyear, hyear', hmonth, hmonth', hday, hday'⟩ =>
        ⟨hyear, hyear', hmonth, hmonth', hday, hday'⟩,
      fun h => ⟨h.year_ge, h.year_le, h.month_ge, h.month_le, h.day_ge, h.day_le⟩⟩

end Date

/-! ## Bounds -/

theorem leapDay_cases (year : Int) : leapDay year = 0 ∨ leapDay year = 1 := by
  unfold leapDay
  split
  · exact Or.inr rfl
  · exact Or.inl rfl

/-- Every month has at least 28 days, so walking over whole months makes
progress. -/
theorem le_monthLength (year month : Int) : 28 ≤ monthLength year month := by
  have hleap := leapDay_cases year
  unfold monthLength
  split
  · omega
  · split <;> omega

theorem monthLength_le (year month : Int) : monthLength year month ≤ 31 := by
  have hleap := leapDay_cases year
  unfold monthLength
  split
  · omega
  · split <;> omega

end CivilTime
