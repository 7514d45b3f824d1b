import CivilTime.Script.Action

/-!
# Making moments

The moment that the values of a date, a time of day and a zone name, and the
same with some of them replaced.

The checks come in this order: the numbers of the date fit a machine word, the
date exists, the numbers of the time of day are in range, and the zone is
found.  A floating-point number passes the range check, but an hour, minute or
second has to be whole after all; before that, a reading that the recorded
transitions of the zone skip or repeat may be refused (`Clock.fault`).
-/

namespace CivilTime.Script

/-- The numbers of a time of day, each in its range. -/
structure Clock where
  hour : Number
  minute : Number
  second : Number
  microsecond : Number

namespace Clock

/-- The reading on a date, where the hour, the minute and the second are
whole. -/
def readingOn? (c : Clock) (date : Date) : Option Reading :=
  match c.hour.whole?, c.minute.whole?, c.second.whole? with
  | some hour, some minute, some second =>
    some { year := date.year, month := date.month, day := date.day, hour, minute, second,
           microsecond := c.microsecond.floor }
  | _, _, _ => none

/-- The second that the clock shows on a date, counted on the same clock. -/
def localSecond (c : Clock) (date : Date) : Except Failure Int := do
  let hours ← c.hour.multiply (.whole 3600)
  let minutes ← c.minute.multiply (.whole 60)
  let ofDay ← (← hours.add minutes).add c.second
  return (← (Number.whole (date.dayNumber * 86400)).add ofDay).floor

/-- The written form on a date. -/
def textOn (c : Clock) (date : Date) : String :=
  Text.padded 4 date.year ++ "-" ++ Text.padded 2 date.month ++ "-" ++
    Text.padded 2 date.day ++ " " ++ c.hour.padded 2 ++ ":" ++ c.minute.padded 2 ++ ":" ++
    c.second.padded 2

/-- The fault of a time of day that is not whole: a refusal by the recorded
transitions of a named zone, or else its kind. -/
def fault (c : Clock) (date : Date) (zone : Zone) (choice : Choice) : Failure :=
  match zone with
  | .fixed _ | .abbreviation _ _ _ => Number.notWhole
  | .named data =>
    let settled : Except Failure Int := do
      match data.recordedTimeAt? (← c.localSecond date) with
      | some localTime => choice.settle (c.textOn date) data.key localTime
      | none => .error Number.notWhole
    match settled with
    | .error failure => failure
    | .ok _ => Number.notWhole

/-- The moment at a time of day that is whole but for the microsecond. -/
def moment (c : Clock) (date : Date) (zone : Zone) (choice : Choice) : Except Failure Moment :=
  match c.readingOn? date with
  | some reading => do
    return ⟨← Instant.ofReading zone reading choice, c.microsecond⟩
  | none => .error (c.fault date zone choice)

end Clock

/-- The values that name a moment: the fields of its reading and its zone. -/
structure MomentFields where
  year : Value
  month : Value
  day : Value
  hour : Value
  minute : Value
  second : Value
  microsecond : Value
  zone : Value

namespace Value

/-- A number of a date. -/
def dateField (v : Value) : Except Failure Int :=
  match v with
  | plain p => p.word
  | v => .error (.integerKind v.kind)

/-- A number of a time of day, which has to lie below a limit. -/
def timeField (v : Value) (limit : Int) : Except Failure Number :=
  match v with
  | plain p => p.numberBelow limit
  | v => .error (.order "<=" "int" v.kind)

end Value

namespace MomentFields

/-- The names of the fields. -/
def names : List String :=
  ["year", "month", "day", "hour", "minute", "second", "microsecond", "tz"]

/-- The fields of a moment. -/
def ofMoment (m : Moment) : MomentFields where
  year := .plain (.int m.instant.reading.year)
  month := .plain (.int m.instant.reading.month)
  day := .plain (.int m.instant.reading.day)
  hour := .plain (.int m.instant.reading.hour)
  minute := .plain (.int m.instant.reading.minute)
  second := .plain (.int m.instant.reading.second)
  microsecond := .plain (.number m.microsecond)
  zone := .zone m.instant.zone

/-- The field at a position of a list, and zero beyond its end. -/
def fieldAt (fields : List Plain) (index : Nat) : Value :=
  .plain (fields[index]?.getD (.int 0))

/-- The fields of a list from the year down, with a microsecond and a zone. -/
def ofList (fields : List Plain) (microsecond : Option Plain) (zone : Value) : MomentFields where
  year := fieldAt fields 0
  month := fieldAt fields 1
  day := fieldAt fields 2
  hour := fieldAt fields 3
  minute := fieldAt fields 4
  second := fieldAt fields 5
  microsecond := .plain (microsecond.getD (.int 0))
  zone

/-- The fields with some replaced, by their names. -/
def replace (f : MomentFields) (values : List (String × Value)) : MomentFields where
  year := (values.lookup "year").getD f.year
  month := (values.lookup "month").getD f.month
  day := (values.lookup "day").getD f.day
  hour := (values.lookup "hour").getD f.hour
  minute := (values.lookup "minute").getD f.minute
  second := (values.lookup "second").getD f.second
  microsecond := (values.lookup "microsecond").getD f.microsecond
  zone := (values.lookup "tz").getD f.zone

/-- The date that the fields name. -/
def date (f : MomentFields) : Except Failure Date := do
  let year ← f.year.dateField
  let month ← f.month.dateField
  let day ← f.day.dateField
  (Date.mk year month day).check
  return ⟨year, month, day⟩

/-- The time of day that the fields name. -/
def clock (f : MomentFields) : Except Failure Clock := do
  let hour ← f.hour.timeField 24
  let minute ← f.minute.timeField 60
  let second ← f.second.timeField 60
  let microsecond ← f.microsecond.timeField microsPerSecond
  return { hour, minute, second, microsecond }

/-- The moment that the fields name. -/
def make (f : MomentFields) (choice : Choice) : Action Moment := do
  let date ← Action.ofResult f.date
  let clock ← Action.ofResult f.clock
  let zone ← f.zone.toZone
  Action.ofResult (clock.moment date zone choice)

end MomentFields

/-! ## From arguments -/

/-- The count of the arguments of a reading and of those given by name, in
words. -/
def argumentCount (fields : List Plain) (named : Nat) : String :=
  toString (fields.length + 1) ++ " positional arguments (and " ++ toString named ++
    " keyword-only argument" ++ (if named = 1 then "" else "s") ++ ")"

/-- Refuse a reading without a date, or with more than a date and a time of
day. -/
def checkFieldCount (fields : List Plain) (named : Nat) : Except Failure Unit :=
  let operation := "CivilInstant.__init__()"
  if fields.length < 3 then
    .error (.missingArguments operation (["year", "month", "day"].drop fields.length))
  else if 6 < fields.length then
    .error (.tooManyArguments operation 4 7 (argumentCount fields named))
  else .ok ()

/-- The moment of a list of fields from the year down. -/
def momentOfList (fields : List Plain) (microsecond : Option Plain) (zone : Value)
    (choice : Option Plain) : Action Moment := do
  let named := 1 + microsecond.toList.length + choice.toList.length
  Action.ofResult (checkFieldCount fields named)
  (MomentFields.ofList fields microsecond zone).make (Plain.choice choice)

/-- Refuse names that are no fields of a moment, all of them at once. -/
def checkFieldNames (names : List String) : Except Failure Unit :=
  let unknown := names.filter fun name => !(MomentFields.names.contains name)
  if names.contains "self" then .error (.repeatedArgument "CivilInstant.replace()" "self")
  else if unknown.isEmpty then .ok ()
  else .error (.unknownFields (Store.sortedNames unknown))

/-- The fault of replacing fields of a value that is no moment.  Texts have an
operation of that name, which puts one text for another and takes no names. -/
def Value.replacementFault (v : Value) (named : Bool) : Failure :=
  match v with
  | plain (.text _) =>
    if named then .namedArguments "str.replace()" else .tooFewArguments "replace" 2 0
  | _ => .noOperation

/-- The moment with fields replaced by their names.  A choice among the fields
counts where none is given besides. -/
def Moment.replace (m : Moment) (values : List (String × Value)) (choice : Option Plain) :
    Action Moment := do
  let fields := values.filter fun field => field.1 ≠ "disambiguate"
  Action.ofResult (checkFieldNames (fields.map Prod.fst))
  let named := match values.lookup "disambiguate" with
    | some (.plain p) => some p
    | _ => none
  ((MomentFields.ofMoment m).replace fields).make (Plain.choice (choice <|> named))

end CivilTime.Script
