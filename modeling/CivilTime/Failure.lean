import CivilTime.Text.Quoted

/-!
# Failures

Everything that can go wrong, one constructor per cause, each with the data
that its message needs.

* `RuleFault` lists the ways in which the text of a zone rule can be
  malformed.
* `Failure` lists all causes, and `Failure.category` sorts them into the few
  kinds that callers tell apart.
* `Failure.message?` is the wording.  Failures of the machinery below the
  library (numbers beyond a machine word, division by zero, truncated data)
  have a category and no wording.

Where a message shows a value, the cause holds the written form of the value
or the name of its kind.
-/

namespace CivilTime

/-- What is wrong with the text of a zone rule. -/
inductive RuleFault where
  /-- A character outside ASCII. -/
  | nonAscii
  /-- A zone name is missing, is empty, or is not followed by an offset. -/
  | missingName
  /-- A character that cannot start a zone name. -/
  | invalidName
  /-- Another character than the one required. -/
  | expectedChar (c : Char)
  /-- No digit at a position of the text, counted from zero. -/
  | expectedDigit (position : Nat)
  /-- Not two digits at the start of the rest of the text. -/
  | expectedTwoDigits (rest : String)
  /-- Two digits above 59. -/
  | aboveFiftyNine (digits : String)
  /-- An offset of a day or more. -/
  | offsetRange
  /-- A daylight offset, one hour above the standard one, of a day or more. -/
  | daylightRange
  /-- A month, week or weekday out of range. -/
  | invalidDate
  /-- A week above 5. -/
  | invalidWeek (week : Nat)
  /-- A day of a year without leap day that is not in 1 to 365. -/
  | invalidJulianDay (day : Nat)
  /-- A day of the year above 365. -/
  | invalidYearDay (day : Nat)
  /-- Text after the end of the rule. -/
  | trailing (rest : String)
  deriving DecidableEq, Repr

namespace RuleFault

/-- The wording of a fault. -/
def message : RuleFault → String
  | nonAscii => "Invalid POSIX TZ string: non-ASCII characters found"
  | missingName => "Invalid TZ string: missing or empty name"
  | invalidName => "Invalid TZ string: invalid name"
  | expectedChar c => "Invalid TZ string: expected " ++ Text.quoted c.toString
  | expectedDigit position => "Invalid TZ string: expected digit at " ++ toString position
  | expectedTwoDigits rest => "Invalid TZ string: expected 2 digits, got " ++ Text.quoted rest
  | aboveFiftyNine digits => "Invalid TZ string: expected 00-59, got " ++ Text.quoted digits
  | offsetRange => "Invalid POSIX TZ string: offset out of range"
  | daylightRange => "Invalid POSIX TZ string: DST offset out of range"
  | invalidDate => "Invalid DST rule"
  | invalidWeek week => "Invalid week number: " ++ toString week
  | invalidJulianDay day => "Invalid Julian day of year: " ++ toString day
  | invalidYearDay day => "Invalid day of year: " ++ toString day
  | trailing rest => "Invalid POSIX TZ string: unexpected trailing " ++ Text.quoted rest

end RuleFault

/-- A cause of failure. -/
inductive Failure where
  /-- A number that does not fit the machine word of a calendar field, or a
  date beyond the calendar reached by counting days. -/
  | beyondWord
  /-- A number beyond the range of floating-point numbers. -/
  | beyondBinary
  /-- A year outside 1 to 9999. -/
  | year (year : Int)
  /-- A month outside 1 to 12. -/
  | month
  /-- A month outside 1 to 12 whose length is asked for. -/
  | monthLength
  /-- A day that the month does not have. -/
  | day
  /-- A day before 0001-01-01. -/
  | ordinal
  /-- A date or a day number outside the calendar. -/
  | date
  /-- An hour, minute, second or microsecond out of range. -/
  | timeOfDay
  /-- A microsecond outside a second. -/
  | microsecond
  /-- A timestamp or microsecond that is not a whole number. -/
  | timestampKind
  /-- A range without width to carry into. -/
  | emptyRange
  /-- A remainder on division by zero. -/
  | zeroDivisor
  /-- The text of a zone rule is malformed. -/
  | rule (fault : RuleFault)
  /-- A zone file without a readable header. -/
  | fileHeader
  /-- A zone file with a block that its counts do not fit. -/
  | fileLayout
  /-- A transition of a zone file to a type that the file does not have. -/
  | fileType
  /-- A rule in a zone file with a byte outside ASCII. -/
  | fileRuleBytes
  /-- A zone file without types and without a rule. -/
  | fileEmpty
  /-- An offset that is not a whole number. -/
  | offsetKind
  /-- An offset of a day or more. -/
  | offsetRange (offset : Int)
  /-- An abbreviation without text. -/
  | abbreviation
  /-- Neither a zone key nor zone data. -/
  | zoneDataKind
  /-- Neither a zone nor a zone key. -/
  | zoneKind (shown : String)
  /-- A key that is malformed or for which there is no zone. -/
  | zoneNotFound (shown : String)
  /-- A local time that occurs twice in a zone. -/
  | repeatedTime (shown : String) (key : Option String)
  /-- A local time that does not occur in a zone. -/
  | skippedTime (shown : String) (key : Option String)
  /-- A component of an interval that is not a whole number. -/
  | componentKind
  /-- A weekday that is none. -/
  | weekdayKind
  /-- A name that no weekday has. -/
  | weekdayName
  /-- A number that is no number of a weekday. -/
  | weekdayNumber (shown : String)
  /-- A count of weekdays that is not a whole number. -/
  | countKind
  /-- A kind of month or business-day move that does not exist. -/
  | moveKind (shown : String)
  /-- An amount of such a move that is not a whole number. -/
  | amountKind
  /-- Names of fields that an instant does not have. -/
  | unknownFields (names : List String)
  /-- A movement that is neither amounts nor a move. -/
  | movementKind (shown : String)
  /-- Neither an interval nor a move to shift by. -/
  | deltaKind (shown : String)
  /-- A difference of something other than two instants. -/
  | differenceKind
  /-- Operands that an operator does not take. -/
  | operands (operator left right : String)
  /-- Operands without an order. -/
  | order (operator left right : String)
  /-- An operand that has no opposite. -/
  | opposite (kind : String)
  /-- Something other than a sequence of the same kind to append to one. -/
  | joined (kind other : String)
  /-- Fewer values than are named. -/
  | tooFewValues (expected given : Nat)
  /-- More values than are named. -/
  | tooManyValues (expected : Nat)
  /-- A value of a kind that cannot be looked up. -/
  | lookupKind (kind : String)
  /-- The name of an operation that is not a text. -/
  | nameKind (kind : String)
  /-- The name of something that is no operation, by its kind. -/
  | notOperation (kind : String)
  /-- Arguments that an operation needs, by their names. -/
  | missingArguments (operation : String) (names : List String)
  /-- More arguments than an operation takes: the fewest and the most that it
  takes, and how they are counted. -/
  | tooManyArguments (operation : String) (fewest most : Nat) (given : String)
  /-- Fewer arguments than an operation takes at least. -/
  | tooFewArguments (operation : String) (fewest given : Nat)
  /-- Arguments given by name to an operation that has no names for them. -/
  | namedArguments (operation : String)
  /-- An argument that an operation does not have. -/
  | unknownArgument (operation name : String)
  /-- An argument that is given twice. -/
  | repeatedArgument (operation name : String)
  /-- An argument that is given by its name twice. -/
  | repeatedName (operation name : String)
  /-- A shift named by an unknown mode or direction. -/
  | shiftName (mode direction : String)
  /-- A search path given as one text. -/
  | pathsKind
  /-- A search path with a relative directory. -/
  | relativePath
  /-- A directory of a search path that is not a text, by its kind. -/
  | pathKind (kind : String)
  /-- A value without items where items are needed, by its kind. -/
  | noItems (kind : String)
  /-- A field of a reading that is not a whole number, by its kind. -/
  | integerKind (kind : String)
  /-- A file of zone names that is not UTF-8. -/
  | namesEncoding
  /-- An operation that a value does not have. -/
  | noOperation
  deriving DecidableEq, Repr

/-- The kinds of failure that callers tell apart. -/
inductive Category where
  /-- A value out of its range, or malformed. -/
  | value
  /-- A value of the wrong kind. -/
  | kind
  /-- A number too large. -/
  | overflow
  /-- A division by zero. -/
  | division
  /-- An entry beyond the end of a list. -/
  | index
  /-- Binary data that does not fit its layout. -/
  | layout
  /-- Bytes that are no text. -/
  | encoding
  /-- No zone of a key. -/
  | zoneNotFound
  /-- A local time that occurs twice. -/
  | repeatedTime
  /-- A local time that does not occur. -/
  | skippedTime
  /-- A month whose number is none. -/
  | month
  /-- A name that is not in a table of names. -/
  | name
  /-- No such operation. -/
  | operation
  deriving DecidableEq, Repr

namespace Category

/-- The categories that are special cases of a malformed or out-of-range
value. -/
def isValue : Category → Bool
  | value | encoding | zoneNotFound | repeatedTime | skippedTime | month => true
  | kind | overflow | division | index | layout | name | operation => false

end Category

namespace Failure

/-- The category of a cause. -/
def category : Failure → Category
  | beyondWord | beyondBinary => .overflow
  | emptyRange => .division
  | fileLayout => .layout
  | fileType => .index
  | fileRuleBytes | namesEncoding => .encoding
  | zoneNotFound _ => .zoneNotFound
  | repeatedTime _ _ => .repeatedTime
  | skippedTime _ _ => .skippedTime
  | monthLength => .month
  | weekdayName => .name
  | noOperation => .operation
  | timestampKind | offsetKind | zoneDataKind | zoneKind _ | componentKind | weekdayKind
  | countKind | amountKind | unknownFields _ | movementKind _ | deltaKind _ | differenceKind
  | operands _ _ _ | order _ _ _ | opposite _ | joined _ _ | lookupKind _ | nameKind _
  | notOperation _ | missingArguments _ _ | tooManyArguments _ _ _ _ | tooFewArguments _ _ _
  | namedArguments _ | unknownArgument _ _ | repeatedArgument _ _ | repeatedName _ _ | pathsKind
  | pathKind _ | noItems _ | integerKind _ => .kind
  | year _ | month | day | ordinal | date | timeOfDay | microsecond | zeroDivisor | rule _
  | fileHeader | fileEmpty | offsetRange _ | abbreviation | moveKind _ | shiftName _ _
  | weekdayNumber _ | tooFewValues _ _ | tooManyValues _ | relativePath => .value

/-- Names between quotes, with `and` before the last of several. -/
def quotedNames : List String → String
  | [] => ""
  | [name] => "'" ++ name ++ "'"
  | [first, second] => "'" ++ first ++ "' and '" ++ second ++ "'"
  | [first, second, third] => "'" ++ first ++ "', '" ++ second ++ "', and '" ++ third ++ "'"
  | name :: names => "'" ++ name ++ "', " ++ quotedNames names

/-- The wording of missing arguments. -/
def missingText (operation : String) (names : List String) : String :=
  operation ++ " missing " ++ toString names.length ++ " required positional argument" ++
    (if names.length = 1 then "" else "s") ++ ": " ++ quotedNames names

/-- The wording of a cause, where it has one. -/
def message? : Failure → Option String
  | beyondWord | beyondBinary | emptyRange | fileLayout | fileType | fileRuleBytes | namesEncoding
  | monthLength | weekdayName | noOperation => none
  | year y => some ("year " ++ toString y ++ " is out of range")
  | month => some "month must be in 1..12"
  | day => some "day is out of range for month"
  | ordinal => some "ordinal must be >= 1"
  | date => some "Date out of range"
  | timeOfDay => some "time field out of range"
  | microsecond => some "microsecond out of range"
  | timestampKind => some "timestamp and microsecond must be integers"
  | zeroDivisor => some "math domain error"
  | rule fault => some fault.message
  | fileHeader => some "Invalid header value"
  | fileEmpty => some "No transition data in file"
  | offsetKind => some "offset must be an integer number of seconds"
  | offsetRange offset => some ("offset out of range: " ++ toString offset)
  | abbreviation => some "abbreviation must be a non-empty string"
  | zoneDataKind => some "tz must be a string key or a TimeZone"
  | zoneKind shown => some ("Expected a zone or a zone key, got " ++ shown)
  | zoneNotFound shown => some ("No time zone found for key: " ++ shown)
  | repeatedTime shown key => some (shown ++ " is repeated in " ++ Text.quotedOption key)
  | skippedTime shown key => some (shown ++ " is skipped in " ++ Text.quotedOption key)
  | componentKind => some "interval components must be integers"
  | weekdayKind => some "weekday must be a Weekday"
  | weekdayNumber shown => some (shown ++ " is not a valid Weekday")
  | countKind => some "count must be an integer"
  | moveKind shown => some ("Invalid relative kind: " ++ shown)
  | amountKind => some "amount must be an integer"
  | unknownFields names => some ("Unknown field(s): " ++ ", ".intercalate names)
  | movementKind shown => some ("Unsupported relative movement: " ++ shown)
  | deltaKind shown => some ("Expected an Interval or relative, got " ++ shown)
  | differenceKind => some "diff() requires two CivilInstant arguments"
  | operands operator left right =>
    some ("unsupported operand type(s) for " ++ operator ++ ": '" ++ left ++ "' and '" ++
      right ++ "'")
  | order operator left right =>
    some ("'" ++ operator ++ "' not supported between instances of '" ++ left ++ "' and '" ++
      right ++ "'")
  | opposite kind => some ("bad operand type for unary -: '" ++ kind ++ "'")
  | joined kind other =>
    some ("can only concatenate " ++ kind ++ " (not \"" ++ other ++ "\") to " ++ kind)
  | tooFewValues expected given =>
    some ("not enough values to unpack (expected " ++ toString expected ++ ", got " ++
      toString given ++ ")")
  | tooManyValues expected =>
    some ("too many values to unpack (expected " ++ toString expected ++ ")")
  | lookupKind kind => some ("unhashable type: '" ++ kind ++ "'")
  | nameKind kind => some ("attribute name must be string, not '" ++ kind ++ "'")
  | notOperation kind => some ("'" ++ kind ++ "' object is not callable")
  | missingArguments operation names => some (missingText operation names)
  | tooManyArguments operation fewest most given =>
    some (operation ++ " takes from " ++ toString fewest ++ " to " ++ toString most ++
      " positional arguments but " ++ given ++ " were given")
  | tooFewArguments operation fewest given =>
    some (operation ++ " expected at least " ++ toString fewest ++ " arguments, got " ++
      toString given)
  | namedArguments operation => some (operation ++ " takes no keyword arguments")
  | unknownArgument operation name =>
    some (operation ++ " got an unexpected keyword argument '" ++ name ++ "'")
  | repeatedArgument operation name =>
    some (operation ++ " got multiple values for argument '" ++ name ++ "'")
  | repeatedName operation name =>
    some (operation ++ " got multiple values for keyword argument '" ++ name ++ "'")
  | shiftName mode direction =>
    some ("Invalid mode or direction: " ++ mode ++ ", " ++ direction)
  | pathsKind => some "tzpath must be an iterable of paths"
  | relativePath => some "tzpaths must be absolute paths"
  | pathKind kind => some ("expected str, bytes or os.PathLike object, not " ++ kind)
  | noItems kind => some ("'" ++ kind ++ "' object is not iterable")
  | integerKind kind => some ("'" ++ kind ++ "' object cannot be interpreted as an integer")

end Failure

end CivilTime
