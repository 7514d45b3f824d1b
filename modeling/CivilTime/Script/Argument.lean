import CivilTime.Instant.Shift
import CivilTime.Script.Plain
import CivilTime.Store.Key
import CivilTime.Store.SearchPath
import CivilTime.ZoneRule.Reader

/-!
# Arguments of scripts

The plain values that operations take, checked for their kind and count.  Each
check names the fault that a value of another kind is, and of two faults the
one that is found first.
-/

namespace CivilTime.Script

namespace Plain

/-- An offset of less than a day. -/
def clockOffset (p : Plain) : Except Failure ClockOffset :=
  match p with
  | int n => ClockOffset.ofSeconds n
  | _ => .error .offsetKind

/-- The zone of an abbreviation, whose name is looked at first. -/
def abbreviationZone (name offset daylight : Plain) : Except Failure Zone := do
  match name with
  | text s =>
    if s.isEmpty then .error .abbreviation
    else
      let standard ← offset.clockOffset
      Zone.ofAbbreviation s standard daylight.isTruthy
  | _ => .error .abbreviation

/-- The zone of the arguments of an abbreviation: its name, its offset, and
perhaps whether it is daylight time. -/
def abbreviation (arguments : List Plain) : Except Failure Zone :=
  let operation := "Abbreviation.__init__()"
  match arguments with
  | [] => .error (.missingArguments operation ["abbr", "offset"])
  | [_] => .error (.missingArguments operation ["offset"])
  | [name, offset] => abbreviationZone name offset (bool false)
  | [name, offset, daylight] => abbreviationZone name offset daylight
  | more => .error (.tooManyArguments operation 3 4 (toString (more.length + 1)))

/-- The zone rule of a text. -/
def zoneRule (p : Plain) : Except Failure ZoneRule :=
  match p with
  | text s => ZoneRule.parse s
  | _ => .error .noOperation

/-- A text that can be a zone key. -/
def zoneKey (p : Plain) : Except Failure String :=
  match p with
  | text key => if ZoneKey.isValid key then .ok key else .error (.zoneNotFound p.written)
  | _ => .error (.zoneNotFound p.written)

/-- A component of an interval. -/
def component (p : Plain) : Except Failure Int :=
  match p with
  | int n => .ok n
  | _ => .error .componentKind

/-- The component of a name among given ones, and zero where it is not
given. -/
def namedComponent (fields : List (String × Plain)) (name : String) : Except Failure Int :=
  match fields.lookup name with
  | some p => p.component
  | none => .ok 0

/-- The amounts of named components. -/
def amounts (fields : List (String × Plain)) : Except Failure Amounts := do
  let years ← namedComponent fields "years"
  let months ← namedComponent fields "months"
  let days ← namedComponent fields "days"
  let hours ← namedComponent fields "hours"
  let minutes ← namedComponent fields "minutes"
  let seconds ← namedComponent fields "seconds"
  let microseconds ← namedComponent fields "microseconds"
  return { years, months, days, hours, minutes, seconds, microseconds }

/-- Refuse fields that an interval does not have, the first of them in the
order given. -/
def checkNames : List (String × Plain) → Except Failure Unit
  | [] => .ok ()
  | (name, _) :: fields =>
    if Amounts.names.contains name || name = "invert" then checkNames fields
    else if name = "self" then .error (.repeatedArgument "Interval.__init__()" name)
    else .error (.unknownArgument "Interval.__init__()" name)

/-- The interval of named components and a direction, which may stand among the
components, but not besides as well. -/
def interval (fields : List (String × Plain)) (inverted : Option Plain) :
    Except Failure Interval := do
  let among := fields.lookup "invert"
  if inverted.isSome && among.isSome then .error (.repeatedName "wallclock.Interval()" "invert")
  checkNames fields
  let amounts ← amounts fields
  return { amounts, inverted := ((inverted <|> among).getD (bool false)).isTruthy,
           totalDays := none }

/-- The weekday of a number with a value from 1 to 7. -/
def numberedWeekday (p : Plain) : Except Failure Weekday :=
  let known := match p with
    | number n => if n.sameAs (.whole n.floor) then Weekday.ofNumber? n.floor else none
    | _ => none
  match known with
  | some weekday => .ok weekday
  | none => .error (.weekdayNumber p.written)

/-- A move to a weekday, named by a text. -/
def weekdayMove (weekday count : Plain) : Except Failure WeekdayMove :=
  match weekday with
  | text name =>
    match Weekday.ofName? name with
    | none => .error .weekdayName
    | some weekday =>
      match count with
      | int n => .ok { weekday, count := n }
      | _ => .error .countKind
  | _ => .error .weekdayKind

/-- A special move of a kind that is a value. -/
def specialMove (kind amount : Plain) : Except Failure SpecialMove :=
  let known := match kind with
    | text name => SpecialKind.ofName? name
    | _ => none
  match known with
  | none => .error (.moveKind kind.written)
  | some known =>
    match amount with
    | int n => .ok { kind := known, amount := n }
    | _ => .error .amountKind

/-- A special move of a kind that is a value, whose amount has to be given. -/
def givenMove (kind : Plain) (amount : Option Plain) : Except Failure SpecialMove :=
  match amount with
  | some amount => specialMove kind amount
  | none => .error (.missingArguments "SpecialRelative.__init__()" ["amount"])

/-- The fault of an operation of special moves that there is not.  The parts of
a move have names as well. -/
def moveNameFault (name : String) : Failure :=
  if name = "kind" ∨ name = "amount" then .notOperation "property"
  else if name = "_kind" ∨ name = "_amount" then .notOperation "member_descriptor"
  else .noOperation

/-- A special move by the operation of its name.  A move by months needs no
amount. -/
def namedMove (name : Plain) (amount : Option Plain) : Except Failure SpecialMove :=
  match name with
  | text kind =>
    match SpecialKind.ofName? kind, amount with
    | none, _ => .error (moveNameFault kind)
    | some _, some amount => specialMove name amount
    | some .weekdays, none => .error (.missingArguments "SpecialRelative.weekdays()" ["n"])
    | some _, none => specialMove name (int 0)
  | name => .error (.nameKind name.kind)

/-- A whole number, for which a truth value is taken as well. -/
def integer (p : Plain) : Except Failure Int :=
  match p with
  | number n => n.index
  | p => .error (.integerKind p.kind)

/-- A whole number for a machine word. -/
def word (p : Plain) : Except Failure Int := do
  let n ← p.integer
  if fitsWord n then .ok n else .error .beyondWord

/-- A number from zero up to below a limit. -/
def numberBelow (p : Plain) (limit : Int) : Except Failure Number :=
  match p with
  | number n =>
    if n.before (.whole 0) || !n.before (.whole limit) then .error .timeOfDay else .ok n
  | p => .error (.order "<=" "int" p.kind)

/-- A timestamp and its microsecond. -/
def timestamp (seconds microsecond : Plain) : Except Failure (Int × Int) :=
  match seconds, microsecond with
  | int s, int u => .ok (s, u)
  | _, _ => .error .timestampKind

/-- Whether a value can be looked up: lists and records cannot. -/
def isKey : Plain → Bool
  | list _ | record _ => false
  | null | number _ | text _ => true

/-- Refuse a value that cannot be looked up. -/
def checkKey (p : Plain) : Except Failure Unit :=
  if p.isKey then .ok () else .error (.lookupKind p.kind)

/-- A text, where there is one. -/
def text? : Plain → Option String
  | text s => some s
  | _ => none

/-- The choice that a value names. -/
def choice (p : Option Plain) : Choice :=
  match p with
  | some (text name) => Choice.ofName name
  | _ => .compatible

/-- The mode and direction of a shift, by their names. -/
def shiftNames (mode direction : Plain) : Except Failure (ShiftMode × ShiftDirection) := do
  mode.checkKey
  direction.checkKey
  match mode.text?.bind ShiftMode.ofName?, direction.text?.bind ShiftDirection.ofName? with
  | some m, some d => .ok (m, d)
  | _, _ => .error (.shiftName mode.written direction.written)

/-- The directories of a search path, each of which is a text. -/
def directories : List Plain → Except Failure (List String)
  | [] => .ok []
  | text path :: items =>
    if SearchPath.isAbsolute path then do return path :: (← directories items)
    else .error .relativePath
  | p :: _ => .error (.pathKind p.kind)

/-- A search path. -/
def searchPath (p : Plain) : Except Failure (List String) :=
  match p with
  | text _ => .error .pathsKind
  | list items => do SearchPath.ofPaths (← directories items)
  | record fields => do SearchPath.ofPaths (← directories (fields.map fun field => text field.1))
  | p => .error (.noItems p.kind)

/-- The items of a value that has items: those of a list, the characters of a
text, the names of a record. -/
def items (p : Plain) : Except Failure (List Plain) :=
  match p with
  | list items => .ok items
  | text s => .ok (s.toList.map fun c => text c.toString)
  | record fields => .ok (fields.map fun field => text field.1)
  | p => .error (.noItems p.kind)

end Plain

end CivilTime.Script
