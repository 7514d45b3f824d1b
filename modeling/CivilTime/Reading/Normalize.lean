import CivilTime.Reading
import CivilTime.Calendar.Checked

/-!
# Normal readings

Readings and amounts brought back into the ranges of their units.

* `Reading.normalize` carries every unit into the next larger one.  Days
  carry across months by their number, so January 32nd is February 1st.
* `Reading.ofLocalSeconds` is the normal reading of a count of seconds.
* `Amounts.normalize` carries amounts.  Negative days are made up by
  borrowing whole months, as long as the months before a given one are
  (`borrowMonths`).
* `Reading.check` refuses readings that are not normal.
-/

namespace CivilTime

/-- Carry into a range, which must have a width. -/
def tryCarryInto (start stop value carry : Int) : Except Failure (Int × Int) :=
  if start = stop then .error .emptyRange else .ok (carryInto start stop value carry)

/-- Divide toward zero, by a number other than zero. -/
def tryTowardZero (a b : Int) : Except Failure (Int × Int) :=
  if b = 0 then .error .zeroDivisor else .ok (towardZero a b)

namespace Reading

/-- Refuse a reading whose date does not exist or whose time of day is out of
range. -/
def check (r : Reading) : Except Failure Unit := do
  r.date.check
  if 0 ≤ r.hour ∧ r.hour < 24 ∧ 0 ≤ r.minute ∧ r.minute < 60 ∧ 0 ≤ r.second ∧ r.second < 60 ∧
      0 ≤ r.microsecond ∧ r.microsecond < microsPerSecond then
    .ok ()
  else .error .timeOfDay

/-- Carry every unit of a reading into the next larger one. -/
def normalize (r : Reading) : Except Failure Reading := do
  let (microsecond, second) := carryMicroseconds r.microsecond r.second
  let (second, minute) := carryInto 0 60 second r.minute
  let (minute, hour) := carryInto 0 60 minute r.hour
  let (hour, day) := carryInto 0 24 hour r.day
  let (month, year) := carryInto 1 13 r.month r.year
  let first ← (Date.mk year month 1).toDayNumber
  let date ← Date.fromDayNumber (first + day - 1)
  return { year := date.year, month := date.month, day := date.day,
           hour, minute, second, microsecond }

/-- The reading of a count of seconds since 1970-01-01 00:00:00 on the same
clock. -/
def ofLocalSeconds (seconds microsecond : Int) : Except Failure Reading := do
  let date ← Date.fromDayNumber (seconds / 86400)
  let ofDay := seconds % 86400
  return { year := date.year, month := date.month, day := date.day, hour := hourOf ofDay,
           minute := minuteOf ofDay, second := secondOf ofDay, microsecond }

end Reading

/-- The month before a month, and its year. -/
def previousMonth (year month : Int) : Int × Int :=
  if month - 1 < 1 then (year - 1, month + 11) else (year, month - 1)

/-- Make up negative days from the months before a month, nearest first: the
days when they are no longer negative, and the months left. -/
def borrowMonths (year month days months : Int) : Int × Int :=
  if days < 0 then
    let before := previousMonth year month
    borrowMonths before.1 before.2 (days + monthLength before.1 before.2) (months - 1)
  else (days, months)
termination_by (-days).toNat
decreasing_by
  have hlength := le_monthLength (previousMonth year month).1 (previousMonth year month).2
  omega

namespace Amounts

/-- Carry every unit of amounts into the next larger one, and make up
negative days from the months before a given month. -/
def normalize (a : Amounts) (year month : Int) : Amounts :=
  let (microseconds, seconds) := carryMicroseconds a.microseconds a.seconds
  let (seconds, minutes) := carryInto 0 60 seconds a.minutes
  let (minutes, hours) := carryInto 0 60 minutes a.hours
  let (hours, days) := carryInto 0 24 hours a.days
  let (months, years) := carryInto 0 12 a.months a.years
  let (days, months) := borrowMonths year month days months
  let (months, years) := carryInto 0 12 months years
  { years, months, days, hours, minutes, seconds, microseconds }

end Amounts

/-- Borrowing ends with days that are not negative. -/
theorem borrowMonths_nonneg (year month days months : Int) :
    0 ≤ (borrowMonths year month days months).1 := by
  fun_induction borrowMonths year month days months with
  | case1 year month days months hnegative before ih => exact ih
  | case2 year month days months henough => simpa using henough

end CivilTime
