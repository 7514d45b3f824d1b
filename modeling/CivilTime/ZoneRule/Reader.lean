import CivilTime.ZoneRule.Basic

/-!
# Reading zone rules

The text of a zone rule, as POSIX lays it down for the `TZ` variable and zone
files have it in their last line:

* a name and an offset, which is all for a zone without daylight time;
* then a second name, perhaps with an offset, and the two days of the switch
  to daylight time and back, each after a comma and perhaps with a time.

Every reader takes the rest of the text and gives what it read and the rest
after that.  `total` is the length of the whole text, from which a fault
counts its position.
-/

namespace CivilTime.ZoneRule

/-- One hour, by which daylight time is ahead where no offset is given. -/
def defaultShift : Int := 3600

/-- Two o'clock, at which a switch happens where no time is given. -/
def defaultTime : Int := 7200

/-- The value of decimal digits. -/
def digitsValue (digits : List Char) : Nat :=
  digits.foldl (fun value c => 10 * value + (c.toNat - '0'.toNat)) 0

/-- Read one required character. -/
def expect (c : Char) : List Char → Except RuleFault (List Char)
  | [] => .error (.expectedChar c)
  | d :: rest => if d = c then .ok rest else .error (.expectedChar c)

/-- Read past a zone name: letters, or any text between angle brackets.  A
name of letters is followed by something. -/
def skipName : List Char → Except RuleFault (List Char)
  | '<' :: rest =>
    let name := rest.takeWhile (· ≠ '>')
    match rest.dropWhile (· ≠ '>') with
    | [] => .error .missingName
    | _ :: after => if name.isEmpty then .error .missingName else .ok after
  | text =>
    let after := text.dropWhile Char.isAlpha
    if after.isEmpty then .error .missingName
    else if after.length = text.length then .error .invalidName
    else .ok after

/-- Read at least one and at most `most` digits. -/
def readDigits (total most : Nat) (text : List Char) : Except RuleFault (Nat × List Char) :=
  let digits := (text.take most).takeWhile Char.isDigit
  if digits.isEmpty then .error (.expectedDigit (total - text.length))
  else .ok (digitsValue digits, text.drop digits.length)

/-- Read exactly two digits, which are at most 59. -/
def readSixtieth (text : List Char) : Except RuleFault (Nat × List Char) :=
  let digits := text.take 2
  if digits.length < 2 || !digits.all Char.isDigit then
    .error (.expectedTwoDigits (String.ofList text))
  else if 59 < digitsValue digits then .error (.aboveFiftyNine (String.ofList digits))
  else .ok (digitsValue digits, text.drop 2)

/-- Read minutes and seconds after a colon each, if they are there, as
seconds. -/
def readMinutes : List Char → Except RuleFault (Int × List Char)
  | ':' :: rest => do
    let (minutes, rest) ← readSixtieth rest
    match rest with
    | ':' :: rest => do
      let (seconds, rest) ← readSixtieth rest
      return (minutes * 60 + seconds, rest)
    | rest => return (minutes * 60, rest)
  | rest => return (0, rest)

/-- Read hours of up to three digits, with minutes and seconds if they are
there, as seconds. -/
def readDuration (total : Nat) (text : List Char) : Except RuleFault (Int × List Char) := do
  let (hours, rest) ← readDigits total 3 text
  let (minutes, rest) ← readMinutes rest
  return (hours * 3600 + minutes, rest)

/-- Read a duration with or without a sign in front. -/
def readSigned (total : Nat) : List Char → Except RuleFault (Int × List Char)
  | '+' :: rest => readDuration total rest
  | '-' :: rest => do
    let (seconds, rest) ← readDuration total rest
    return (-seconds, rest)
  | text => readDuration total text

/-- Read an offset of less than a day.  The text counts offsets westward. -/
def readOffset (total : Nat) (text : List Char) : Except RuleFault (Int × List Char) := do
  let (seconds, rest) ← readSigned total text
  if 86400 ≤ seconds.natAbs then .error .offsetRange
  else return (-seconds, rest)

/-- Read the day of a switch. -/
def readDay (total : Nat) : List Char → Except RuleFault (RuleDay × List Char)
  | 'M' :: rest => do
    let (month, rest) ← readDigits total 2 rest
    let rest ← expect '.' rest
    let (week, rest) ← readDigits total 1 rest
    let rest ← expect '.' rest
    let (weekday, rest) ← readDigits total 1 rest
    if month < 1 ∨ 12 < month ∨ week < 1 ∨ 6 < weekday then .error .invalidDate
    else if week < 5 then return (.nthWeekday month week weekday, rest)
    else if week = 5 then return (.lastWeekday month weekday, rest)
    else .error (.invalidWeek week)
  | 'J' :: rest => do
    let (nth, rest) ← readDigits total 3 rest
    if nth < 1 ∨ 365 < nth then .error (.invalidJulianDay nth)
    else return (.julianDay nth, rest)
  | text => do
    let (nth, rest) ← readDigits total 3 text
    if 365 < nth then .error (.invalidYearDay nth)
    else return (.yearDay (nth + 1), rest)

/-- Read the day of a switch and its time, if that is there. -/
def readSwitch (total : Nat) (text : List Char) : Except RuleFault (Switch × List Char) := do
  let (day, rest) ← readDay total text
  match rest with
  | '/' :: rest => do
    let (time, rest) ← readSigned total rest
    return (⟨day, time⟩, rest)
  | rest => return (⟨day, defaultTime⟩, rest)

/-- Read the offset of daylight time; before a comma it is left out. -/
def readDaylightOffset (total : Nat) (standard : Int) (text : List Char) :
    Except RuleFault (Int × List Char) :=
  match text with
  | ',' :: _ =>
    if 86400 ≤ standard + defaultShift then .error .daylightRange
    else .ok (standard + defaultShift, text)
  | _ => readOffset total text

/-- Read the name, the offset and the switches of daylight time, to the end
of the text. -/
def readDaylight (total : Nat) (standard : Int) (text : List Char) :
    Except RuleFault Daylight := do
  let rest ← skipName text
  let (offset, rest) ← readDaylightOffset total standard rest
  let rest ← expect ',' rest
  let (start, rest) ← readSwitch total rest
  let rest ← expect ',' rest
  let (stop, rest) ← readSwitch total rest
  if rest.isEmpty then return { offset, start, stop }
  else .error (.trailing (String.ofList rest))

/-- Whether a character is an ASCII character. -/
def isAscii (c : Char) : Bool := c.toNat < 128

/-- Read a whole text as a zone rule. -/
def read (text : List Char) : Except RuleFault ZoneRule := do
  if !text.all isAscii then .error .nonAscii
  let rest ← skipName text
  let (standard, rest) ← readOffset text.length rest
  if rest.isEmpty then return { standard, daylight := none }
  else return { standard, daylight := some (← readDaylight text.length standard rest) }

/-- The zone rule of a text. -/
def parse (text : String) : Except Failure ZoneRule :=
  (read text.toList).mapError Failure.rule

end CivilTime.ZoneRule
