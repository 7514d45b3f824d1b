import CivilTime.Zone.LocalTime
import CivilTime.ZoneRule.Day

/-!
# Zone rules

A zone that follows the same rule in every year: a standard offset, and
perhaps daylight time between two moments of the year.

* `ZoneRule.localBounds` are the two moments of a year on the clock that is
  in use just before each, `ZoneRule.exactBounds` the same moments as exact
  times.
* `ZoneRule.periodAt` is the offset period around an exact time.
* `ZoneRule.localTimeAt` says how often a local time occurs.

Daylight time may begin before it ends in the calendar year, or end before
it begins; and its offset may lie above or below the standard one.  The year
of a lookup is the year of the local time, so lookups fail where that lies
outside the calendar.
-/

namespace CivilTime

/-- A moment that comes once a year: a day, and a number of seconds from its
midnight, which may lie on another day. -/
structure Switch where
  day : RuleDay
  time : Int
  deriving DecidableEq, Repr

/-- Daylight time: its offset, and the moments at which it begins and ends. -/
structure Daylight where
  offset : Int
  start : Switch
  stop : Switch
  deriving DecidableEq, Repr

/-- A standard offset, and daylight time if the zone has it. -/
structure ZoneRule where
  standard : Int
  daylight : Option Daylight
  deriving DecidableEq, Repr

namespace Switch

/-- The moment in a year, in seconds since 1970-01-01 00:00:00 on the clock
that it is read on. -/
def inYear (s : Switch) (year : Int) : Int :=
  s.day.dayIn year * 86400 + s.time

/-- The written form. -/
def text (s : Switch) : String :=
  "(" ++ s.day.text ++ ", " ++ toString s.time ++ ")"

end Switch

namespace Daylight

/-- Begin and end in a year, each on the clock in use just before it. -/
def localBounds (d : Daylight) (year : Int) : Int × Int :=
  (d.start.inYear year, d.stop.inYear year)

/-- Begin and end in a year as exact times. -/
def exactBounds (d : Daylight) (standard year : Int) : Int × Int :=
  (d.start.inYear year - standard, d.stop.inYear year - d.offset)

/-- The written form. -/
def text (d : Daylight) : String :=
  "Dst(offset=" ++ toString d.offset ++ ", start=" ++ d.start.text ++ ", end=" ++ d.stop.text ++
    ")"

/-- The moment of the year before, unless that is before the calendar. -/
def earlier (year bound : Int) : Option Int :=
  if year ≤ 1 then none else some bound

/-- The period around an exact time, with the year in which to look. -/
def periodIn (d : Daylight) (standard year epoch : Int) : OffsetPeriod :=
  let (start, stop) := d.exactBounds standard year
  let (startBefore, stopBefore) := d.exactBounds standard (year - 1)
  if start < stop then
    if start ≤ epoch ∧ epoch < stop then ⟨d.offset, some start, true⟩
    else if stop ≤ epoch then ⟨standard, some stop, false⟩
    else ⟨standard, earlier year stopBefore, false⟩
  else
    if stop ≤ epoch ∧ epoch < start then ⟨standard, some stop, false⟩
    else if start ≤ epoch then ⟨d.offset, some start, true⟩
    else ⟨d.offset, earlier year startBefore, true⟩

/-- How often a local time occurs in a year with two switches: `outer` holds
before `first` and after `second`, `inner` between them. -/
def localTimeBetween (first second outer inner time : Int) : LocalTime :=
  let shift := inner - outer
  if 0 ≤ shift then
    if time < first then .once outer
    else if time < first + shift then .skipped inner outer
    else if time < second - shift then .once inner
    else if time < second then .repeated inner outer
    else .once outer
  else
    if time < first + shift then .once outer
    else if time < first then .repeated outer inner
    else if time < second then .once inner
    else if time < second - shift then .skipped outer inner
    else .once outer

/-- How often a local time occurs, with the year in which to look. -/
def localTimeIn (d : Daylight) (standard year time : Int) : LocalTime :=
  let (start, stop) := d.localBounds year
  if start < stop then localTimeBetween start stop standard d.offset time
  else localTimeBetween stop start d.offset standard time

end Daylight

namespace ZoneRule

/-- The offset period around an exact time. -/
def periodAt (r : ZoneRule) (epoch : Int) : Except Failure OffsetPeriod :=
  match r.daylight with
  | none => .ok ⟨r.standard, none, false⟩
  | some d => do
    let year ← yearAt (epoch + r.standard)
    return d.periodIn r.standard year epoch

/-- How often a local time occurs. -/
def localTimeAt (r : ZoneRule) (time : Int) : Except Failure LocalTime :=
  match r.daylight with
  | none => .ok (.once r.standard)
  | some d => do
    let year ← yearAt time
    return d.localTimeIn r.standard year time

/-- The written form. -/
def text (r : ZoneRule) : String :=
  match r.daylight with
  | none => "TzStr(std=" ++ toString r.standard ++ ")"
  | some d => "TzStr(std=" ++ toString r.standard ++ ", dst=" ++ d.text ++ ")"

end ZoneRule

end CivilTime
