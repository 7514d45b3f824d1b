import CivilTime.Delta.Move
import CivilTime.Zone.Basic

/-!
# Instants

An exact time together with its reading in a zone.

* `Instant.atEpoch` is the instant of an exact time: the zone gives the
  offset, and the offset the reading.  `Instant.reread` derives the reading
  of an instant anew.
* `Instant.atReading` is the instant of a reading.  Its reading is kept as it
  is, also where the zone skips it, and then does not belong to its exact
  time; `Instant.reread` repairs that.
* `Instant.ofReading` is the instant that a reading means, and
  `Instant.ofTimestamp` that of a count of seconds.

A reading that a zone skips or repeats is settled by a `Choice`.

Instants are compared by their exact time, to the microsecond.
-/

namespace CivilTime

/-- How to settle a reading that a zone skips or repeats. -/
inductive Choice where
  /-- The first of two, and after a gap. -/
  | compatible
  /-- The first of two, and before a gap. -/
  | earlier
  /-- The second of two, and after a gap. -/
  | later
  /-- Refuse it. -/
  | refuse
  deriving DecidableEq, Repr

/-- An exact time and its reading in a zone. -/
structure Instant where
  reading : Reading
  /-- The seconds since 1970-01-01 00:00:00 UTC. -/
  epoch : Int
  /-- The offset as the kind of zone defines it. -/
  kept : Int
  isDaylight : Bool
  zone : Zone
  deriving DecidableEq

namespace Choice

/-- The choice of a name.  Other names settle compatibly. -/
def ofName (name : String) : Choice :=
  if name = "earlier" then earlier
  else if name = "later" then later
  else if name = "raise" then refuse
  else compatible

/-- The offset to read a local time at.  The written form of the reading and
the key of the zone are what a refusal shows. -/
def settle (choice : Choice) (shown : String) (key : Option String) :
    LocalTime → Except Failure Int
  | .once offset => .ok offset
  | .repeated first second =>
    match choice with
    | refuse => .error (.repeatedTime shown key)
    | later => .ok second
    | compatible | earlier => .ok first
  | .skipped before after =>
    match choice with
    | refuse => .error (.skippedTime shown key)
    | earlier => .ok before
    | compatible | later => .ok after

end Choice

namespace Zone

/-- The exact time at which a zone's clock shows a reading. -/
def epochOf (zone : Zone) (reading : Reading) (choice : Choice) : Except Failure Int :=
  match zone with
  | fixed offset => .ok (reading.localSeconds - offset.seconds)
  | abbreviation _ standard isDaylight =>
    .ok (reading.localSeconds - standard.seconds - daylightHour isDaylight)
  | named data => do
    let localTime ← data.localTimeAt reading.localSeconds
    let offset ← choice.settle reading.text data.key localTime
    return reading.localSeconds - offset

end Zone

namespace Instant

/-- The offset from UTC. -/
def offset (t : Instant) : Int :=
  t.zone.fullOffset t.kept t.isDaylight

/-- The microsecond of the second. -/
def microsecond (t : Instant) : Int :=
  t.reading.microsecond

/-- The exact time in microseconds. -/
def microEpoch (t : Instant) : Int :=
  t.epoch * 1000000 + t.microsecond

/-! ## Making instants -/

/-- The instant of an exact time in a zone. -/
def atEpoch (zone : Zone) (epoch microsecond : Int) : Except Failure Instant := do
  let (kept, isDaylight) ← zone.offsetAt epoch
  let reading ← Reading.ofLocalSeconds (epoch + zone.fullOffset kept isDaylight) microsecond
  return { reading, epoch, kept, isDaylight, zone }

/-- The same exact time with its reading derived anew. -/
def reread (t : Instant) : Except Failure Instant :=
  atEpoch t.zone t.epoch t.microsecond

/-- The instant of a reading in a zone, with the reading as it is. -/
def atReading (zone : Zone) (reading : Reading) (choice : Choice) : Except Failure Instant := do
  let _ ← reading.date.toDayNumber
  let epoch ← zone.epochOf reading choice
  let (kept, isDaylight) ← zone.offsetAt epoch
  return { reading, epoch, kept, isDaylight, zone }

/-- The instant that a normal reading means in a zone. -/
def ofReading (zone : Zone) (reading : Reading) (choice : Choice) : Except Failure Instant := do
  reading.check
  let t ← atReading zone reading choice
  t.reread

/-- The instant of a count of seconds and a microsecond. -/
def ofTimestamp (zone : Zone) (epoch microsecond : Int) : Except Failure Instant :=
  if 0 ≤ microsecond ∧ microsecond < microsPerSecond then atEpoch zone epoch microsecond
  else .error .microsecond

/-- The same exact time in another zone. -/
def inZone (t : Instant) (zone : Zone) : Except Failure Instant :=
  atEpoch zone t.epoch t.microsecond

/-- The instant after a movement of the reading, or at the reading itself,
with the reading as it is. -/
def atMoved (t : Instant) (movement : Option Movement) (choice : Choice) :
    Except Failure Instant := do
  let reading ← match movement with
    | some m => t.reading.move m
    | none => pure t.reading
  atReading t.zone reading choice

/-! ## Comparing instants -/

/-- Whether two instants are the same exact time. -/
def sameTime (s t : Instant) : Bool :=
  s.epoch = t.epoch && s.microsecond = t.microsecond

/-- Whether an instant is an earlier exact time than another. -/
def earlierThan (s t : Instant) : Bool :=
  s.epoch < t.epoch || (s.epoch = t.epoch && s.microsecond < t.microsecond)

/-- Whether two instants agree in everything: exact time, reading, offset and
zone. -/
def sameAs (s t : Instant) : Bool :=
  s = t

/-- The written form, with the fraction of a second as it is written. -/
def textWith (t : Instant) (fraction : String) : String :=
  "CivilInstant(" ++ t.reading.text ++ fraction ++ offsetText t.offset ++ t.zone.suffix ++ ")"

/-- The written form. -/
def text (t : Instant) : String :=
  t.textWith (if t.microsecond = 0 then "" else "." ++ Text.padded 6 t.microsecond)

end Instant

end CivilTime
