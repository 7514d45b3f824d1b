import CivilTime.Calendar.Checked
import CivilTime.Calendar.Weekday

/-!
# Days of a yearly rule

The four ways in which a rule names one day of every year.  `RuleDay.dayIn`
is the number of that day, and `RuleDay.dateIn` is its date for years within
the calendar.  Weekdays count from Sunday, which is 0.
-/

namespace CivilTime

/-- A day that comes once a year. -/
inductive RuleDay where
  /-- The last given weekday of a month. -/
  | lastWeekday (month weekday : Int)
  /-- The n-th given weekday of a month. -/
  | nthWeekday (month nth weekday : Int)
  /-- The n-th day of the year; beyond its end, the last. -/
  | yearDay (nth : Int)
  /-- The n-th day of the year when February 29th is not counted. -/
  | julianDay (nth : Int)
  deriving DecidableEq, Repr

namespace RuleDay

/-- The month in which the search for the day starts. -/
def startMonth : RuleDay → Int
  | lastWeekday month _ => month
  | nthWeekday month _ _ => month
  | yearDay _ => 1
  | julianDay _ => 1

/-- The number of the day in a year. -/
def dayIn (rule : RuleDay) (year : Int) : Int :=
  match rule with
  | lastWeekday month weekday =>
    let last := (Date.mk year month (monthLength year month)).dayNumber
    last - (sundayNumber last - weekday) % 7
  | nthWeekday month nth weekday =>
    let first := (Date.mk year month 1).dayNumber
    first + (weekday - sundayNumber first) % 7 + 7 * (nth - 1)
  | yearDay nth =>
    (Date.mk year 1 1).dayNumber + min nth (365 + leapDay year) - 1
  | julianDay nth =>
    (Date.mk year 1 1).dayNumber + nth - 1 + if nth > 59 then leapDay year else 0

/-- Refuse a last weekday of a month that does not exist, whose length is needed
before anything else. -/
def checkMonth : RuleDay → Except Failure Unit
  | lastWeekday month _ => if month < 1 ∨ 12 < month then .error .monthLength else .ok ()
  | nthWeekday _ _ _ | yearDay _ | julianDay _ => .ok ()

/-- The date of the day in a year within the calendar. -/
def dateIn (rule : RuleDay) (year : Int) : Except Failure Date := do
  rule.checkMonth
  let start := Date.mk year rule.startMonth 1
  start.check
  start.addDays (rule.dayIn year - start.dayNumber)

/-- The written form. -/
def text : RuleDay → String
  | lastWeekday month weekday =>
    "LastWeekday(" ++ toString month ++ ", " ++ toString weekday ++ ")"
  | nthWeekday month nth weekday =>
    "NthWeekday(" ++ toString month ++ ", " ++ toString nth ++ ", " ++ toString weekday ++ ")"
  | yearDay nth => "DayOfYear(" ++ toString nth ++ ")"
  | julianDay nth => "JulianDayOfYear(" ++ toString nth ++ ")"

end RuleDay

end CivilTime
