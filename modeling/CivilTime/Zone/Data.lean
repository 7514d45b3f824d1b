import CivilTime.Text.Quoted
import CivilTime.Zone.Search
import CivilTime.ZoneRule.Basic

/-!
# Zone data

All that is known about a zone: its recorded transitions, and the rule that
holds after the last of them.

* `exactTable` lists the transitions by exact time.  Its first entry, at the first
  second of the calendar, stands for the time before all transitions.
* `wallTable` lists the same transitions by local time, each with the offset
  before it and the change that it makes.
* `ZoneData.offsetAt` and `ZoneData.periodAt` look an exact time up, and
  `ZoneData.localTimeAt` a local time.  After the last entry of its table a
  lookup asks the rule; without a rule the last offset goes on.

A zone has at least one of the two: an entry in `exactTable`, or a rule.
-/

namespace CivilTime

/-- The first second of the calendar: 0001-01-01 00:00:00. -/
def firstSecond : Int := -62135596800

/-- The last second of the calendar: 9999-12-31 23:59:59. -/
def lastSecond : Int := 253402300799

/-- The nearest second within the calendar. -/
def clampSecond (second : Int) : Int :=
  max firstSecond (min lastSecond second)

/-- From the second `since` on, the offset holds. -/
structure ExactEntry where
  since : Int
  offset : Int
  isDaylight : Bool
  deriving DecidableEq, Repr

/-- Up to the local second `limit` the offset holds, and then it changes. -/
structure WallEntry where
  limit : Int
  offset : Int
  change : Int
  deriving DecidableEq, Repr

/-- A zone: its key, its transitions, and its rule after them. -/
structure ZoneData where
  key : Option String
  exactTable : Array ExactEntry
  wallTable : Array WallEntry
  rule : Option ZoneRule
  known : exactTable.size ≠ 0 ∨ rule.isSome
  deriving DecidableEq

/-- The period that a recorded transition begins. -/
def ExactEntry.period (entry : ExactEntry) : OffsetPeriod :=
  ⟨entry.offset, some entry.since, entry.isDaylight⟩

/-- How often a local time before the limit occurs.  The last seconds before
the limit, as many as the change has, are the ones in question. -/
def WallEntry.localTimeAt (entry : WallEntry) (time : Int) : LocalTime :=
  if time < entry.limit - entry.change.natAbs ∨ entry.change = 0 then .once entry.offset
  else if entry.change < 0 then .repeated entry.offset (entry.offset + entry.change)
  else .skipped (entry.offset + entry.change) entry.offset

/-- The period that a rule gives after the last recorded transition.  The
period began at that transition if the rule's own lies before it. -/
def periodAfter (last : Option ExactEntry) (period : OffsetPeriod) : Option OffsetPeriod :=
  match last, period.since with
  | none, none => none
  | none, some _ => some period
  | some entry, none => some { period with since := some entry.since }
  | some entry, some since =>
    if entry.since ≤ since then some period
    else some { period with since := some entry.since }

namespace ZoneData

/-- The zone of a rule alone. -/
def ofRule (key : Option String) (rule : ZoneRule) : ZoneData where
  key
  exactTable := #[]
  wallTable := #[]
  rule := some rule
  known := Or.inr rfl

/-- The last entry of a zone without a rule. -/
def lastEntry (z : ZoneData) (hrule : z.rule = none) : ExactEntry :=
  have hlast : z.exactTable.size - 1 < z.exactTable.size := by
    rcases z.known with hrecorded | hruled
    · omega
    · simp [hrule] at hruled
  z.exactTable[z.exactTable.size - 1]

/-- The entry before an index, or the first entry. -/
def entryBefore (z : ZoneData) (index : Fin z.exactTable.size) : ExactEntry :=
  have hbefore : index.val - 1 < z.exactTable.size := by omega
  z.exactTable[index.val - 1]

/-- The last recorded transition, if any is recorded. -/
def lastTransition (z : ZoneData) : Option ExactEntry :=
  if hrecorded : 1 < z.exactTable.size then some z.exactTable[z.exactTable.size - 1] else none

/-- The offset at an exact time, and whether it is daylight time. -/
def offsetAt (z : ZoneData) (epoch : Int) : Except Failure (Int × Bool) :=
  match firstAfter ExactEntry.since z.exactTable epoch with
  | some index => .ok ((z.entryBefore index).offset, (z.entryBefore index).isDaylight)
  | none =>
    match hrule : z.rule with
    | some rule => do
      let period ← rule.periodAt epoch
      return (period.offset, period.isDaylight)
    | none => .ok ((z.lastEntry hrule).offset, (z.lastEntry hrule).isDaylight)

/-- The period around an exact time, where a transition before it is known. -/
def periodAt (z : ZoneData) (epoch : Int) : Except Failure (Option OffsetPeriod) :=
  match firstAfter ExactEntry.since z.exactTable epoch with
  | some index => .ok (if index.val ≤ 1 then none else some (z.entryBefore index).period)
  | none =>
    match z.rule with
    | none => .ok (z.lastTransition.map ExactEntry.period)
    | some rule => do
      let period ← rule.periodAt epoch
      return periodAfter z.lastTransition period

/-- How often a local time occurs, where the recorded transitions tell. -/
def recordedTimeAt? (z : ZoneData) (time : Int) : Option LocalTime :=
  (firstAfter WallEntry.limit z.wallTable time).map fun index =>
    z.wallTable[index].localTimeAt time

/-- How often a local time occurs. -/
def localTimeAt (z : ZoneData) (time : Int) : Except Failure LocalTime :=
  match z.recordedTimeAt? time with
  | some localTime => .ok localTime
  | none =>
    match hrule : z.rule with
    | some rule => rule.localTimeAt time
    | none =>
      match z.wallTable.back? with
      | some last => .ok (.once (last.offset + last.change))
      | none => .ok (.once (z.lastEntry hrule).offset)

/-- The written form. -/
def text (z : ZoneData) : String :=
  "TimeZone(" ++ Text.quotedOption z.key ++ ")"

end ZoneData

end CivilTime
