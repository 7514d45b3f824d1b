import CivilTime.Text.Quoted

/-!
# Local times and offset periods

The two answers of a zone.

* Asked about a local time, it says how often that time occurs
  (`LocalTime`).
* Asked about an exact time, it says which offset holds, since when, and
  whether it is daylight time (`OffsetPeriod`).
-/

namespace CivilTime

/-- How often a local time occurs in a zone. -/
inductive LocalTime where
  /-- It occurs once, at this offset. -/
  | once (offset : Int)
  /-- It is skipped.  Read at `before` it lies before the gap, read at
  `after` it lies after the gap. -/
  | skipped (before after : Int)
  /-- It occurs twice, first at the offset `first`, then at `second`. -/
  | repeated (first second : Int)
  deriving DecidableEq, Repr

namespace LocalTime

/-- The written form. -/
def text : LocalTime → String
  | once offset => "Unambiguous(" ++ toString offset ++ ")"
  | skipped before after => "Gap(" ++ toString before ++ ", " ++ toString after ++ ")"
  | repeated first second => "Fold(" ++ toString first ++ ", " ++ toString second ++ ")"

end LocalTime

/-- The period of one offset around an exact time. -/
structure OffsetPeriod where
  offset : Int
  /-- The second at which the period began, where that is known. -/
  since : Option Int
  isDaylight : Bool
  deriving DecidableEq, Repr

namespace OffsetPeriod

/-- The written form. -/
def text (p : OffsetPeriod) : String :=
  let since := match p.since with
    | some second => toString second
    | none => "None"
  "OffsetInfo(" ++ toString p.offset ++ ", " ++ since ++ ", " ++ Text.truth p.isDaylight ++ ")"

end OffsetPeriod

end CivilTime
