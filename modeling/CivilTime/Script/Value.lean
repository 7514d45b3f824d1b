import CivilTime.Script.Moment
import CivilTime.Script.Plain

/-!
# Values of scripts

What the registers of a script hold: moments, deltas, zones, zone data, and
plain values.
-/

namespace CivilTime.Script

/-- A value of a script. -/
inductive Value where
  | plain (p : Plain)
  | moment (m : Moment)
  | delta (d : Delta)
  | zone (z : Zone)
  | zoneData (z : ZoneData)

namespace Value

/-- The name of the kind of value. -/
def kind : Value → String
  | plain p => p.kind
  | moment _ => "CivilInstant"
  | delta (.interval _) => "Interval"
  | delta (.weekday _) => "WeekdayRelative"
  | delta (.special _) => "SpecialRelative"
  | zone (.fixed _) => "FixedOffset"
  | zone (.abbreviation _ _ _) => "Abbreviation"
  | zone (.named _) => "NamedZone"
  | zoneData _ => "TimeZone"

/-- The written form. -/
def written : Value → String
  | plain p => p.written
  | moment m => m.text
  | delta (.interval i) => i.text
  | delta (.weekday m) => m.text
  | delta (.special m) => m.text
  | zone z => z.text
  | zoneData z => z.text

/-- Whether two values are equal.  Moments are equal at the same exact time,
and intervals without regard to their whole days. -/
def sameAs : Value → Value → Bool
  | plain p, plain q => p.sameAs q
  | moment m, moment n => m.sameTime n
  | delta (.interval i), delta (.interval j) => i.sameAs j
  | delta c, delta d => c = d
  | zone y, zone z => y = z
  | zoneData y, zoneData z => y = z
  | _, _ => false

end Value

end CivilTime.Script
