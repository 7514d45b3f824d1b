import CivilTime.Calendar.DayNumber
import CivilTime.Clock.TimeOfDay
import CivilTime.Text.Padded

/-!
# Clock readings

What a calendar and a clock show at one moment: seven numbers from the year
to the microsecond.  Like a `Date`, a `Reading` makes no promise about its
numbers, so that arithmetic can pass through readings out of range.

* `Amounts` are seven signed counts of the same units.  They are added to a
  reading and are the difference of two readings, unit by unit; the two undo
  each other (`Reading.plus_difference`).
* `Reading.before` is the order of readings from the largest unit down.
* `Reading.localSeconds` counts the seconds that the reading shows since
  1970-01-01 00:00:00 on the same clock.
-/

namespace CivilTime

/-- What a calendar and a clock show. -/
structure Reading where
  year : Int
  month : Int
  day : Int
  hour : Int
  minute : Int
  second : Int
  microsecond : Int
  deriving DecidableEq, Repr, Inhabited

/-- Signed counts of the units of a reading. -/
structure Amounts where
  years : Int := 0
  months : Int := 0
  days : Int := 0
  hours : Int := 0
  minutes : Int := 0
  seconds : Int := 0
  microseconds : Int := 0
  deriving DecidableEq, Repr, Inhabited

namespace Amounts

/-- The counts from the years to the microseconds. -/
def toList (a : Amounts) : List Int :=
  [a.years, a.months, a.days, a.hours, a.minutes, a.seconds, a.microseconds]

/-- The names of the counts, in the order of `toList`. -/
def names : List String :=
  ["years", "months", "days", "hours", "minutes", "seconds", "microseconds"]

/-- Every count times a factor. -/
def scale (factor : Int) (a : Amounts) : Amounts where
  years := factor * a.years
  months := factor * a.months
  days := factor * a.days
  hours := factor * a.hours
  minutes := factor * a.minutes
  seconds := factor * a.seconds
  microseconds := factor * a.microseconds

/-- The counts of the date units alone. -/
def datePart (a : Amounts) : Amounts where
  years := a.years
  months := a.months
  days := a.days

/-- Whether no date unit is counted. -/
def isTimeOnly (a : Amounts) : Bool :=
  a.years = 0 && a.months = 0 && a.days = 0

end Amounts

namespace Reading

/-- The numbers from the year to the microsecond. -/
def toList (r : Reading) : List Int :=
  [r.year, r.month, r.day, r.hour, r.minute, r.second, r.microsecond]

/-- The date shown. -/
def date (r : Reading) : Date :=
  ⟨r.year, r.month, r.day⟩

/-- The same time of day on another date. -/
def onDate (r : Reading) (date : Date) : Reading :=
  { r with year := date.year, month := date.month, day := date.day }

/-- The seconds of the day shown. -/
def daySeconds (r : Reading) : Int :=
  clockSeconds r.hour r.minute r.second

/-- The microseconds of the day shown. -/
def dayMicroseconds (r : Reading) : Int :=
  r.daySeconds * 1000000 + r.microsecond

/-- The seconds shown since 1970-01-01 00:00:00 on the same clock. -/
def localSeconds (r : Reading) : Int :=
  r.date.dayNumber * 86400 + r.daySeconds

/-- The reading with amounts added unit by unit, nothing carried. -/
def plus (r : Reading) (a : Amounts) : Reading where
  year := r.year + a.years
  month := r.month + a.months
  day := r.day + a.days
  hour := r.hour + a.hours
  minute := r.minute + a.minutes
  second := r.second + a.seconds
  microsecond := r.microsecond + a.microseconds

/-- The amounts that lead from one reading to another, unit by unit. -/
def difference (r later : Reading) : Amounts where
  years := later.year - r.year
  months := later.month - r.month
  days := later.day - r.day
  hours := later.hour - r.hour
  minutes := later.minute - r.minute
  seconds := later.second - r.second
  microseconds := later.microsecond - r.microsecond

/-- Whether one list of numbers comes before another, the first difference
deciding. -/
def listBefore : List Int → List Int → Bool
  | x :: xs, y :: ys => x < y || (x = y && listBefore xs ys)
  | _, _ => false

/-- Whether a reading comes before another, the largest unit that differs
deciding. -/
def before (r s : Reading) : Bool :=
  listBefore r.toList s.toList

/-- The date and the time to the second, as they stand in messages. -/
def text (r : Reading) : String :=
  Text.padded 4 r.year ++ "-" ++ Text.padded 2 r.month ++ "-" ++ Text.padded 2 r.day ++ " " ++
    Text.padded 2 r.hour ++ ":" ++ Text.padded 2 r.minute ++ ":" ++ Text.padded 2 r.second

theorem plus_difference (r s : Reading) : r.plus (r.difference s) = s := by
  cases r; cases s
  simp only [plus, difference, Reading.mk.injEq]
  omega

end Reading

end CivilTime
