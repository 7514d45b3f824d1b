import CivilTime.Instant.Basic
import CivilTime.Note

/-!
# Differences of instants

The interval from one instant to another, in calendar units and in whole
days.

* `inOrder` puts two instants in order: by their readings within one named
  zone, and else by exact time.
* `wholeDays` counts the days between two instants: dates apart where their
  clocks agree, and else spans of 24 hours.
* `acrossZones` compares the readings on the clock of the earlier instant.
* `sameZone` compares the readings of one named zone and corrects for a
  transition between them.  `Correction` says which of the three corrections
  applies.
* `diff` chooses between the two.
-/

namespace CivilTime.Instant

/-- Whether two instants are read on clocks with the same date line: the same
named zone, or zones of one other kind at the same offset. -/
def sameClock (a b : Instant) : Bool :=
  match a.zone, b.zone with
  | .named x, .named y => x = y
  | .fixed _, .fixed _ => a.offset = b.offset
  | .abbreviation _ _ _, .abbreviation _ _ _ => a.offset = b.offset
  | _, _ => false

/-- Two instants in order, and whether that exchanged them.  Within one named
zone the readings decide. -/
def inOrder (a b : Instant) : Instant × Instant × Bool :=
  let exchange := if a.zone.sameNamed b.zone then b.reading.before a.reading
    else b.earlierThan a
  if exchange then (b, a, true) else (a, b, false)

/-- The whole days between two instants. -/
def wholeDays (a b : Instant) : Int :=
  if a.sameClock b then
    let (first, last) := if a.earlierThan b then (a, b) else (b, a)
    let days : Int := (a.reading.date.dayNumber - b.reading.date.dayNumber).natAbs
    -- the last day is not complete before the time of day has come round
    if days ≠ 0 ∧ last.reading.dayMicroseconds < first.reading.dayMicroseconds then days - 1
    else days
  else
    let seconds : Int := (a.epoch - b.epoch).natAbs
    seconds / 86400

/-! ## Across zones -/

/-- The zone on whose clock an instant stands still: its own, or the offset of
a named zone. -/
def clockZone (t : Instant) : Except Failure Zone :=
  match t.zone with
  | .named _ => do return .fixed (← ClockOffset.ofSeconds t.kept)
  | zone => .ok zone

/-- The interval between instants that are not in one named zone. -/
def acrossZones (a b : Instant) : Except Failure Interval := do
  let (one, two, inverted) := inOrder a b
  let zone ← one.clockZone
  let two' ← atEpoch zone two.epoch two.microsecond
  return {
    amounts := (one.reading.difference two'.reading).normalize two'.reading.year
      two'.reading.month
    inverted
    totalDays := some (wholeDays one two) }

/-! ## Within a named zone -/

/-- What a transition does to the difference of two readings. -/
inductive Correction where
  | none
  /-- The clock went back: its change is taken off the hours. -/
  | backward
  /-- The clock went forward: its change is taken off the hours. -/
  | forward
  /-- The last day ends before a transition, some seconds ahead, and counts as
  hours. -/
  | lastDay (seconds : Int)
  deriving DecidableEq, Repr

/-- Whether the clock's step forward is counted in the difference of two
readings, given the second of the transition and the change of the offset. -/
def countsStep (one two : Instant) (transition change : Int) : Bool :=
  !(transition < one.epoch + 86400 && one.epoch + 86400 ≤ transition + change) &&
    transition ≤ two.epoch &&
    two.epoch - transition < (two.epoch - one.epoch + change).tmod 86400

/-- The correction for a difference, whose offset changes by `change` from
its first to its second instant. -/
def correction (data : ZoneData) (one two : Instant) (change : Int) :
    Except Failure Correction :=
  if one.isDaylight && !two.isDaylight then
    if two.epoch - one.epoch + change < 86400 then .ok .backward else .ok .none
  else if !one.isDaylight && two.isDaylight then do
    match ← data.periodAt two.epoch with
    | some { since := some transition, .. } =>
      if countsStep one two transition change then return .forward else return .none
    | _ => return .none
  else if 86400 ≤ two.epoch - one.epoch then do
    match ← data.periodAt (two.epoch - two.kept) with
    | some { offset, since := some transition, .. } =>
      if transition - (one.kept - offset) ≤ two.epoch ∧ two.epoch < transition then
        return .lastDay (transition - two.epoch)
      else return .none
    | _ => return .none
  else .ok .none

/-- The change of an offset in whole hours and the whole minutes left. -/
def changeParts (change : Int) : Int × Int :=
  let (hours, rest) := towardZero change 3600
  (hours, (towardZero rest 60).1)

/-- Amounts with a correction applied, and what it reports. -/
def Correction.apply (c : Correction) (change : Int) (a : Amounts) : Amounts × List Note :=
  let (hours, minutes) := changeParts change
  let moved : Amounts := { a with hours := a.hours - hours, minutes := a.minutes - minutes }
  match c with
  | none => (a, [])
  | backward => (moved, [.backward (-hours) minutes.natAbs])
  | forward => (moved, [.forward (-hours) minutes.natAbs])
  | lastDay seconds => ({ a with days := a.days - 1, hours := 24 }, [.endsBefore seconds])

/-- The amounts between two readings of which the second is the earlier exact
time.  They lie in a time that occurs twice, and the change of the offset is
what separates them. -/
def repeatedAmounts (a : Amounts) (change : Int) : Amounts :=
  let seconds : Int := (a.minutes * 60 + a.seconds - change).natAbs
  { a with hours := seconds / 3600, minutes := seconds % 3600 / 60, seconds := seconds % 60 }

/-- The interval between two instants of one named zone. -/
def sameZone (data : ZoneData) (a b : Instant) : Except Failure (Interval × List Note) := do
  let (one, two, exchanged) := inOrder a b
  let change := two.kept - one.kept
  let raw := one.reading.difference two.reading
  let reversed : Bool := two.epoch < one.epoch
  let amounts := if reversed then repeatedAmounts raw change else raw
  let normal := amounts.normalize two.reading.year two.reading.month
  let correction ← correction data one two change
  let (amounts, notes) := correction.apply change normal
  return ({ amounts, inverted := exchanged != reversed,
            totalDays := some (wholeDays one two) }, notes)

/-- The interval from one instant to another, and what its computation
reports. -/
def diff (a b : Instant) : Except Failure (Interval × List Note) :=
  match a.zone, b.zone with
  | .named x, .named y =>
    if x = y then sameZone y a b else do return (← acrossZones a b, [])
  | _, _ => do return (← acrossZones a b, [])

end CivilTime.Instant
