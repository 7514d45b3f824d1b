import CivilTime.Calendar.BusinessDay
import CivilTime.Calendar.Weekday
import CivilTime.Delta.Interval

/-!
# Moves of the date

Movements that are not amounts of calendar units: to a weekday, by business
days, or to the first or last day of a month.  They change the date of a
reading and keep its time of day.

* `WeekdayMove` and `SpecialMove` are the moves, `Delta` is a move or an
  interval, and `Movement` is what it does in one direction.
* `Reading.move` performs a movement on a reading.
-/

namespace CivilTime

/-- A move to a counted occurrence of a weekday. -/
structure WeekdayMove where
  weekday : Weekday
  count : Int
  deriving DecidableEq, Repr

/-- The kinds of special move. -/
inductive SpecialKind where
  /-- By business days. -/
  | weekdays
  /-- By months, to the first day of the month. -/
  | firstDayOf
  /-- By months, to the last day of the month. -/
  | lastDayOf
  deriving DecidableEq, Repr

/-- A special move by an amount. -/
structure SpecialMove where
  kind : SpecialKind
  amount : Int
  deriving DecidableEq, Repr

/-- What an instant can be shifted by. -/
inductive Delta where
  | interval (i : Interval)
  | weekday (m : WeekdayMove)
  | special (m : SpecialMove)
  deriving DecidableEq, Repr

/-- A delta with its direction worked in. -/
inductive Movement where
  | amounts (a : Amounts)
  | weekday (m : WeekdayMove)
  | special (m : SpecialMove)
  deriving DecidableEq, Repr

namespace SpecialKind

/-- The name of a kind. -/
def name : SpecialKind → String
  | weekdays => "weekdays"
  | firstDayOf => "first_day_of"
  | lastDayOf => "last_day_of"

/-- The kind of a name. -/
def ofName? (name : String) : Option SpecialKind :=
  [weekdays, firstDayOf, lastDayOf].find? (·.name = name)

end SpecialKind

namespace WeekdayMove

/-- The move by the opposite count. -/
def negate (m : WeekdayMove) : WeekdayMove :=
  { m with count := -m.count }

/-- The written form. -/
def text (m : WeekdayMove) : String :=
  "WeekdayRelative(" ++ m.weekday.name ++ ", " ++ toString m.count ++ ")"

end WeekdayMove

namespace SpecialMove

/-- The move by the opposite amount. -/
def negate (m : SpecialMove) : SpecialMove :=
  { m with amount := -m.amount }

/-- The date that a move leads to.  A move by months does not look at the
day, and its year may lie outside the calendar. -/
def apply (m : SpecialMove) (date : Date) : Except Failure Date :=
  match m.kind with
  | .weekdays => do
    let day ← date.toDayNumber
    Date.fromDayNumber (addBusinessDays day m.amount)
  | .firstDayOf =>
    let (month, year) := carryInto 1 13 (date.month + m.amount) date.year
    .ok ⟨year, month, 1⟩
  | .lastDayOf =>
    let (month, year) := carryInto 1 13 (date.month + m.amount) date.year
    .ok ⟨year, month, monthLength year month⟩

/-- The written form. -/
def text (m : SpecialMove) : String :=
  "SpecialRelative(" ++ Text.quoted m.kind.name ++ ", " ++ toString m.amount ++ ")"

end SpecialMove

namespace WeekdayMove

/-- The date that a move leads to. -/
def apply (m : WeekdayMove) (date : Date) : Except Failure Date := do
  let day ← date.toDayNumber
  Date.fromDayNumber (moveToWeekday day m.weekday m.count)

end WeekdayMove

namespace Delta

/-- The delta in the other direction. -/
def negate : Delta → Delta
  | interval i => .interval i.negate
  | weekday m => .weekday m.negate
  | special m => .special m.negate

/-- The movement of a delta, forward or backward. -/
def movement (d : Delta) (backward : Bool) : Movement :=
  match d with
  | interval i => .amounts (i.signed (if backward then -1 else 1))
  | weekday m => .weekday (if backward then m.negate else m)
  | special m => .special (if backward then m.negate else m)

end Delta

namespace Reading

/-- The reading after a movement. -/
def move (r : Reading) : Movement → Except Failure Reading
  | .amounts a => (r.plus a).normalize
  | .weekday m => do return r.onDate (← m.apply r.date)
  | .special m => do return r.onDate (← m.apply r.date)

end Reading

end CivilTime
