import CivilTime.Zone.Data
import CivilTime.Zone.Offset

/-!
# Zones

The three kinds of zone an instant can be read in: a fixed offset, an
abbreviation with a standard offset and perhaps one hour of daylight time,
and a named zone with its data.

An instant keeps the offset the way its kind of zone defines it.  For a named
zone that is the full offset; for the others it is the standard one, and
`Zone.fullOffset` adds the hour of daylight time.  `Zone.offsetAt` gives both
the kept offset and the daylight flag at an exact time.
-/

namespace CivilTime

/-- A zone to read instants in. -/
inductive Zone where
  | fixed (offset : ClockOffset)
  | abbreviation (name : String) (standard : ClockOffset) (isDaylight : Bool)
  | named (data : ZoneData)
  deriving DecidableEq

namespace Zone

/-- The hour by which daylight time is ahead of an abbreviation's standard
offset. -/
def daylightHour (isDaylight : Bool) : Int :=
  if isDaylight then 3600 else 0

/-- The abbreviation of a name that is not empty. -/
def ofAbbreviation (name : String) (standard : ClockOffset) (isDaylight : Bool) :
    Except Failure Zone :=
  if name.isEmpty then .error .abbreviation else .ok (.abbreviation name standard isDaylight)

/-- The offset that an instant keeps at an exact time, and whether it is
daylight time. -/
def offsetAt (zone : Zone) (epoch : Int) : Except Failure (Int × Bool) :=
  match zone with
  | fixed offset => .ok (offset.seconds, false)
  | abbreviation _ standard isDaylight => .ok (standard.seconds, isDaylight)
  | named data => data.offsetAt epoch

/-- The offset from UTC that a kept offset and daylight flag mean. -/
def fullOffset (zone : Zone) (kept : Int) (isDaylight : Bool) : Int :=
  match zone with
  | named _ => kept
  | fixed _ | abbreviation _ _ _ => kept + daylightHour isDaylight

/-- Whether two zones are named zones with the same data. -/
def sameNamed (a b : Zone) : Bool :=
  match a, b with
  | named x, named y => x = y
  | _, _ => false

/-- The mark of the zone after the time of an instant. -/
def suffix (zone : Zone) : String :=
  match zone with
  | fixed _ => ""
  | abbreviation name _ _ => "[" ++ name ++ "]"
  | named data => "[" ++ data.key.getD "None" ++ "]"

/-- The written form. -/
def text (zone : Zone) : String :=
  match zone with
  | fixed offset => "FixedOffset(" ++ offsetText offset.seconds ++ ")"
  | abbreviation name standard isDaylight =>
    "Abbreviation(" ++ Text.quoted name ++ ", " ++ offsetText standard.seconds ++ ", dst=" ++
      Text.truth isDaylight ++ ")"
  | named data => "NamedZone(" ++ Text.quotedOption data.key ++ ")"

end Zone

end CivilTime
