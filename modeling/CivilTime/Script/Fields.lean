import CivilTime.Instant.Shift
import CivilTime.Script.Plain

/-!
# Calendar fields of scripts

The seven numbers, from the year down to the microsecond, that a moment shows
and that an interval counts.

An operation that moves a reading computes with these numbers first and asks
for the zone afterwards.  With an interval it goes just as far: the new fields
are found and their date is checked, and only then there is no zone to read
them in.

* `Fields.plus` adds seven values, and `Fields.move` performs a movement.
* `Fields.normalize` carries seven numbers.  A floating-point number among
  them passes into every larger unit, and is refused where a day or a year has
  to be whole; a fault that is met on the way there comes first
  (`Fields.carryFault`).
* `Fields.checkShift` is what a shift does before it needs a zone.
-/

namespace CivilTime.Script

namespace Number

/-- The sum of a number and a value, which has to be a number. -/
def addPlain (n : Number) (p : Plain) : Except Failure Number :=
  match p with
  | .number m => n.add m
  | p => .error (.operands "+" n.kind p.kind)

/-- A number with the carry out of a smaller unit, of which `width` make one.
The carry out of a floating-point number is one too. -/
def withCarry (n : Number) (width : Int) (smaller : Number) : Except Failure Number :=
  match smaller.whole? with
  | some k => n.add (.whole (k / width))
  | none => n.add (.binary 0)

end Number

/-- Calendar fields, with the microsecond as it was given. -/
structure Fields where
  /-- The fields, with the whole part of the microsecond. -/
  reading : Reading
  microsecond : Number

namespace Fields

/-- The fields of a reading of whole numbers. -/
def ofReading (r : Reading) : Fields :=
  ⟨r, .whole r.microsecond⟩

/-- The fields that amounts count. -/
def ofAmounts (a : Amounts) : Fields :=
  ofReading {
    year := a.years, month := a.months, day := a.days, hour := a.hours, minute := a.minutes,
    second := a.seconds, microsecond := a.microseconds }

/-- The numbers from the year to the microsecond. -/
def numbers (f : Fields) : List Number :=
  (f.reading.toList.take 6).map .whole ++ [f.microsecond]

/-- Refuse fields whose date does not exist. -/
def check (f : Fields) : Except Failure Unit := do
  let _ ← f.reading.date.toDayNumber

/-- The fault of carrying seven numbers of which one is a floating-point
number: a carry between numbers of both kinds of which the whole one is too
large, then a month that does not exist, and else the kind of the number. -/
def carryFault (year month day hour minute second microsecond : Number) :
    Except Failure Fields := do
  let second ← second.withCarry 1000000 microsecond
  let minute ← minute.withCarry 60 second
  let hour ← hour.withCarry 60 minute
  let _ ← day.withCarry 24 hour
  let month ← month.subtract (.whole 1)
  let year ← year.withCarry 12 month
  match year.whole?, month.whole? with
  | some year, some month => do
    let _ ← (Date.mk year (month % 12 + 1) 1).toDayNumber
  | _, _ => .ok ()
  .error Number.notWhole

/-- The normal fields of seven numbers. -/
def normalize (numbers : List Number) : Except Failure Fields :=
  match numbers.mapM Number.whole?, numbers with
  | some [year, month, day, hour, minute, second, microsecond], _ => do
    let r : Reading := { year, month, day, hour, minute, second, microsecond }
    return ofReading (← r.normalize)
  | _, [year, month, day, hour, minute, second, microsecond] =>
    carryFault year month day hour minute second microsecond
  | _, _ => .error Number.notWhole

/-- The fields after seven values are added to them, unit by unit. -/
def plus (f : Fields) (items : List Plain) : Except Failure Fields :=
  if items.length < 7 then .error (.tooFewValues 7 items.length)
  else if 7 < items.length then .error (.tooManyValues 7)
  else do normalize (← (f.numbers.zip items).mapM fun (n, p) => n.addPlain p)

/-- The fields after a movement.  Moves of the date keep the microsecond as it
was given. -/
def move (f : Fields) (m : Movement) : Except Failure Fields :=
  match m with
  | .amounts a => f.plus (a.toList.map .int)
  | .weekday _ | .special _ => do return ⟨← f.reading.move m, f.microsecond⟩

/-- What a shift by a movement does before it needs a zone: the reading moves,
and its date is checked.  A shift by elapsed time alone does not move it. -/
def checkShift (f : Fields) (m : Movement) (mode : ShiftMode) : Except Failure Unit :=
  match mode, m with
  | .wall, .amounts a =>
    if a.isTimeOnly then .ok () else do (← f.move (.amounts a.datePart)).check
  | _, m => do (← f.move m).check

end Fields

end CivilTime.Script
