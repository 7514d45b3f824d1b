import CivilTime.Instant.Basic

/-!
# Shifting instants

Adding an interval or a move to an instant, in two modes.

* In absolute mode (`add`, `subtract`) the reading moves, and the result is
  what the new reading means.  The time of day is kept where it exists.
* In wall mode (`addWall`, `subtractWall`) only the date moves that way, and
  the hours and smaller units are added as elapsed time.

`shift` takes the mode and the direction as values.
-/

namespace CivilTime

/-- The two ways to shift. -/
inductive ShiftMode where
  | absolute
  | wall
  deriving DecidableEq, Repr

/-- The mode of a name. -/
def ShiftMode.ofName? (name : String) : Option ShiftMode :=
  if name = "absolute" then some .absolute
  else if name = "wall" then some .wall
  else none

/-- The two directions of a shift. -/
inductive ShiftDirection where
  | forward
  | backward
  deriving DecidableEq, Repr

/-- The direction of a name. -/
def ShiftDirection.ofName? (name : String) : Option ShiftDirection :=
  if name = "add" then some .forward
  else if name = "sub" then some .backward
  else none

namespace Instant

/-- Move the reading, and take the instant that the new reading means. -/
def shiftReading (t : Instant) (m : Movement) : Except Failure Instant := do
  let moved ← t.atMoved (some m) .compatible
  moved.reread

/-- Let elapsed time pass: hours and smaller units. -/
def elapse (t : Instant) (a : Amounts) : Except Failure Instant :=
  let (microseconds, seconds) := carryMicroseconds a.microseconds a.seconds
  let (microsecond, carry) := carryMicroseconds (t.microsecond + microseconds) 0
  atEpoch t.zone (t.epoch + clockSeconds a.hours a.minutes seconds + carry) microsecond

/-- Move the date on the calendar, then let the rest pass as elapsed time.
A moved date that the zone skips is not repaired in between. -/
def shiftWall (t : Instant) (a : Amounts) : Except Failure Instant :=
  if a.isTimeOnly then t.elapse a
  else do
    let moved ← t.atMoved (some (.amounts a.datePart)) .compatible
    moved.elapse a

/-- Shift by a delta in a mode and a direction. -/
def shift (t : Instant) (d : Delta) (mode : ShiftMode) (direction : ShiftDirection) :
    Except Failure Instant :=
  match mode, d.movement (direction = .backward) with
  | .wall, .amounts a => t.shiftWall a
  | _, m => t.shiftReading m

/-- Add to the reading. -/
def add (t : Instant) (d : Delta) : Except Failure Instant :=
  t.shift d .absolute .forward

/-- Subtract from the reading. -/
def subtract (t : Instant) (d : Delta) : Except Failure Instant :=
  t.shift d .absolute .backward

/-- Add the date part to the reading and the time part as elapsed time. -/
def addWall (t : Instant) (d : Delta) : Except Failure Instant :=
  t.shift d .wall .forward

/-- Subtract the date part from the reading and the time part as elapsed
time. -/
def subtractWall (t : Instant) (d : Delta) : Except Failure Instant :=
  t.shift d .wall .backward

end Instant

end CivilTime
