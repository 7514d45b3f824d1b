/-!
# Weekdays

The days of the week, numbered from Monday, and moves to a weekday.

* `Weekday.ofNumber?` finds a weekday by its ISO number
  (`Weekday.ofNumber?_number`), and `Weekday.ofName?` by its name.
* `weekdayNumber` is the ISO number of the weekday of a day: 1 for Monday to
  7 for Sunday.  `sundayNumber` counts from Sunday, which is 0.
* `moveToWeekday` moves to a counted occurrence of a weekday after or before
  a day.

Day numbers count from 1970-01-01, which was a Thursday.
-/

namespace CivilTime

/-- The days of the week. -/
inductive Weekday where
  | monday
  | tuesday
  | wednesday
  | thursday
  | friday
  | saturday
  | sunday
  deriving DecidableEq, Repr, Inhabited

namespace Weekday

/-- The ISO number: 1 for Monday to 7 for Sunday. -/
def number : Weekday → Int
  | monday => 1
  | tuesday => 2
  | wednesday => 3
  | thursday => 4
  | friday => 5
  | saturday => 6
  | sunday => 7

/-- The name in capitals, as weekdays are written. -/
def name : Weekday → String
  | monday => "MONDAY"
  | tuesday => "TUESDAY"
  | wednesday => "WEDNESDAY"
  | thursday => "THURSDAY"
  | friday => "FRIDAY"
  | saturday => "SATURDAY"
  | sunday => "SUNDAY"

/-- All weekdays, from Monday on. -/
def all : List Weekday :=
  [monday, tuesday, wednesday, thursday, friday, saturday, sunday]

/-- The weekday of an ISO number. -/
def ofNumber? (n : Int) : Option Weekday :=
  all.find? (·.number = n)

/-- The weekday of a name. -/
def ofName? (name : String) : Option Weekday :=
  all.find? (·.name = name)

theorem number_bounds (weekday : Weekday) : 1 ≤ weekday.number ∧ weekday.number ≤ 7 := by
  cases weekday <;> decide

theorem ofNumber?_number (weekday : Weekday) : ofNumber? weekday.number = some weekday := by
  cases weekday <;> decide

end Weekday

/-- The ISO number of the weekday of a day. -/
def weekdayNumber (day : Int) : Int :=
  (day + 3) % 7 + 1

/-- The number of the weekday of a day, counted from Sunday, which is 0. -/
def sundayNumber (day : Int) : Int :=
  (day + 4) % 7

/-- The day reached by moving to a weekday.  A positive count is that many
occurrences after the day, a negative count that many before it, and zero is
the first occurrence at or after it. -/
def moveToWeekday (day : Int) (weekday : Weekday) (count : Int) : Int :=
  let ahead := (weekday.number - weekdayNumber day) % 7
  let behind := (weekdayNumber day - weekday.number) % 7
  if count = 0 then day + ahead
  else if 0 < count then day + (if ahead = 0 then 7 else ahead) + 7 * (count - 1)
  else day - (if behind = 0 then 7 else behind) - 7 * (-count - 1)

/-- The move lands on the weekday. -/
theorem weekdayNumber_moveToWeekday (day : Int) (weekday : Weekday) (count : Int) :
    weekdayNumber (moveToWeekday day weekday count) = weekday.number := by
  have hbounds := weekday.number_bounds
  simp only [moveToWeekday, weekdayNumber]
  split
  · omega
  · split <;> omega

end CivilTime
