import CivilTime.Instant.Difference
import CivilTime.Script.Fields

/-!
# Moments

Instants as scripts hold them.  A script may give the microsecond as any kind
of number, and what does not compute with it passes it on as it was given.  A
`Moment` is an instant together with that number.

* Reading a moment anew or in another zone, and moves of the date, keep the
  number.
* Adding amounts computes with it.  A truth value becomes a whole number that
  way, and a floating-point number is refused, after the faults that are met
  before it (`Moment.shift`).
* Moments are compared by their exact time, and the number by its value.
-/

namespace CivilTime.Script

/-- An instant, and its microsecond as it was given. -/
structure Moment where
  /-- The instant at the whole part of the microsecond. -/
  instant : Instant
  microsecond : Number

namespace Moment

/-- The moment of an instant. -/
def ofInstant (t : Instant) : Moment :=
  ⟨t, .whole t.microsecond⟩

/-- The moment of a new instant with the microsecond as it was. -/
def carry (m : Moment) (r : Except Failure Instant) : Except Failure Moment := do
  return ⟨← r, m.microsecond⟩

/-- The moment in another zone. -/
def inZone (m : Moment) (zone : Zone) : Except Failure Moment :=
  m.carry (m.instant.inZone zone)

/-- The moment with its reading derived anew. -/
def reread (m : Moment) : Except Failure Moment :=
  m.carry m.instant.reread

/-! ## Moving -/

/-- The calendar fields. -/
def fields (m : Moment) : Fields :=
  ⟨m.instant.reading, m.microsecond⟩

/-- The moment at other fields in the same zone, with the reading as it is. -/
def atFields (m : Moment) (f : Fields) (choice : Choice) : Except Failure Moment := do
  return ⟨← Instant.atReading m.instant.zone f.reading choice, f.microsecond⟩

/-- The fault of letting time pass from a floating-point microsecond: a second
that is too large for such a number, and else its kind. -/
def elapseFault (m : Moment) (a : Amounts) : Failure :=
  let seconds := (carryMicroseconds a.microseconds a.seconds).2
  match (Number.whole (m.instant.epoch + clockSeconds a.hours a.minutes seconds)).toBinary with
  | .error failure => failure
  | .ok _ => Number.notWhole

/-- Shift by a delta in a mode and a direction. -/
def shift (m : Moment) (d : Delta) (mode : ShiftMode) (direction : ShiftDirection) :
    Except Failure Moment :=
  match d.movement (direction = .backward), m.microsecond.whole? with
  | .amounts a, none => do
    m.fields.checkShift (.amounts a) mode
    .error (m.elapseFault a)
  | .amounts _, some _ => do return ofInstant (← m.instant.shift d mode direction)
  | .weekday _, _ | .special _, _ => m.carry (m.instant.shift d mode direction)

/-- The interval from one moment to another, and what its computation
reports. -/
def diff (m n : Moment) : Except Failure (Interval × List Note) :=
  match m.microsecond.whole?, n.microsecond.whole? with
  | some _, some _ => m.instant.diff n.instant
  | _, _ => .error Number.notWhole

/-! ## Comparing moments -/

/-- Whether two moments are the same exact time. -/
def sameTime (m n : Moment) : Bool :=
  m.instant.epoch = n.instant.epoch && m.microsecond.sameAs n.microsecond

/-- Whether a moment is an earlier exact time than another. -/
def earlierThan (m n : Moment) : Bool :=
  m.instant.epoch < n.instant.epoch ||
    (m.instant.epoch = n.instant.epoch && m.microsecond.before n.microsecond)

/-- Whether two moments agree in everything: exact time, reading, offset and
zone. -/
def sameAs (m n : Moment) : Bool :=
  m.instant.sameAs n.instant && m.microsecond.sameAs n.microsecond

/-- The written form. -/
def text (m : Moment) : String :=
  m.instant.textWith (if m.microsecond.isZero then "" else "." ++ m.microsecond.padded 6)

end Moment

end CivilTime.Script
