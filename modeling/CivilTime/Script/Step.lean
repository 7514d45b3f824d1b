import CivilTime.Instant.Shift
import CivilTime.Script.Value

/-!
# Steps of scripts

A script is a list of steps.  A step is one operation on zones, instants,
deltas or the store, with its arguments.

* `Step α` has arguments of type `α` where a step takes the value of a
  register; all else is written into the step.
* `Argument` is such an argument as it is written: a register or a plain
  value.  `Step.resolve` replaces the arguments by values, in the order in
  which the step lists them, and stops at the first register that has none.
-/

namespace CivilTime.Script

/-- The ways to call an operation that has several forms. -/
inductive Form where
  /-- The operation by itself. -/
  | function
  /-- The operation of an instant. -/
  | method
  /-- The sign for the operation. -/
  | operator
  deriving DecidableEq, Repr

/-- One operation and its arguments. -/
inductive Step (α : Type) where
  /-- Make a zone of a fixed offset. -/
  | fixedZone (offset : Plain)
  /-- Make the zone of an abbreviation. -/
  | abbreviationZone (arguments : List Plain)
  /-- Make a named zone from the text of a rule. -/
  | ruleZone (rule : Plain) (key : Option String)
  /-- Make a named zone from the bytes of a zone file. -/
  | fileZone (bytes : List UInt8) (key : Option String)
  /-- Make a named zone from a key or from zone data. -/
  | namedZone (source : α)
  /-- Look exact and local times up in a named zone. -/
  | lookup (zone : α) (exactTimes localTimes : List Int)
  /-- Make an interval. -/
  | interval (components : List (String × Plain)) (inverted : Option Plain)
  /-- Make a move to a weekday. -/
  | weekday (weekday count : Plain)
  /-- Make a special move of a kind given as a value. -/
  | special (kind : Plain) (amount : Option Plain)
  /-- Make a special move with the operation of a kind's name. -/
  | specialNamed (name : Plain) (amount : Option Plain)
  /-- Turn a delta or a number round. -/
  | negate (x : α)
  /-- Make the instant of a reading: date and time from the year down, and
  the microsecond. -/
  | ofReading (fields : List Plain) (microsecond : Option Plain) (zone : α)
      (choice : Option Plain)
  /-- Make the instant of a timestamp. -/
  | ofTimestamp (seconds microsecond : Plain) (zone : α)
  /-- Read an instant in another zone. -/
  | inZone (t zone : α)
  /-- Replace fields of an instant. -/
  | replace (fields : List (String × α)) (t : α) (choice : Option Plain)
  /-- Take an instant at its reading, moved or not, with the reading as it
  is. -/
  | atMoved (movement t : α) (choice : Option Plain)
  /-- Derive the reading of an instant anew. -/
  | reread (t : α)
  /-- Take the interval from one instant to another. -/
  | diff (a b : α) (form : Form)
  /-- Shift an instant. -/
  | shift (t delta : α) (mode : ShiftMode) (direction : ShiftDirection) (form : Form)
  /-- Shift an instant in a mode and direction given as values. -/
  | apply (t delta : α) (mode direction : Plain)
  /-- Compare two instants in every way. -/
  | compare (a b : α)
  /-- Ask whether two values are equal. -/
  | equal (a b : α)
  /-- Write a file. -/
  | write (path : String) (content : List UInt8)
  /-- Remove a file. -/
  | remove (path : String)
  /-- Make a directory. -/
  | makeDirectory (path : String)
  /-- Install the package of zone files, or take it away. -/
  | setPackage (present : Bool)
  /-- Set the two settings that the search path is taken from. -/
  | settings (environment configured : Option String)
  /-- Set the search path, or take it from the settings. -/
  | resetSearchPath (paths : Plain)
  /-- Drop cached zones: all, or those of some keys. -/
  | clearCache (keys : Plain)
  /-- Take the zone of a key from the store. -/
  | getZone (key : Plain)
  /-- List the keys of the cached zones. -/
  | cached
  /-- List the names of all zones that there are files for. -/
  | available

/-- An argument as it is written. -/
inductive Argument where
  | register (name : String)
  | value (p : Plain)

/-- The registers of a script, the one set last first. -/
abbrev Registers := List (String × Value)

namespace Argument

/-- The value of an argument, or the name of its register if that has
none. -/
def resolve (registers : Registers) : Argument → Except String Value
  | register name =>
    match registers.lookup name with
    | some v => .ok v
    | none => .error name
  | value p => .ok (.plain p)

/-- The values of named arguments, in order. -/
def resolveAll (registers : Registers) :
    List (String × Argument) → Except String (List (String × Value))
  | [] => .ok []
  | (name, a) :: rest => do
    let v ← a.resolve registers
    let vs ← resolveAll registers rest
    return (name, v) :: vs

end Argument

/-- A step with the values of its arguments, or the name of the first register
that has none. -/
def Step.resolve (registers : Registers) : Step Argument → Except String (Step Value)
  | fixedZone offset => .ok (.fixedZone offset)
  | abbreviationZone arguments => .ok (.abbreviationZone arguments)
  | ruleZone rule key => .ok (.ruleZone rule key)
  | fileZone bytes key => .ok (.fileZone bytes key)
  | namedZone source => do return .namedZone (← source.resolve registers)
  | lookup zone exactTimes localTimes => do
    return .lookup (← zone.resolve registers) exactTimes localTimes
  | interval components inverted => .ok (.interval components inverted)
  | weekday day count => .ok (.weekday day count)
  | special kind amount => .ok (.special kind amount)
  | specialNamed name amount => .ok (.specialNamed name amount)
  | negate x => do return .negate (← x.resolve registers)
  | ofReading fields microsecond zone choice => do
    return .ofReading fields microsecond (← zone.resolve registers) choice
  | ofTimestamp seconds microsecond zone => do
    return .ofTimestamp seconds microsecond (← zone.resolve registers)
  | inZone t zone => do
    let t ← t.resolve registers
    return .inZone t (← zone.resolve registers)
  | replace fields t choice => do
    let fields ← Argument.resolveAll registers fields
    return .replace fields (← t.resolve registers) choice
  | atMoved movement t choice => do
    let movement ← movement.resolve registers
    return .atMoved movement (← t.resolve registers) choice
  | reread t => do return .reread (← t.resolve registers)
  | diff a b form => do
    let a ← a.resolve registers
    return .diff a (← b.resolve registers) form
  | shift t delta mode direction form => do
    let t ← t.resolve registers
    return .shift t (← delta.resolve registers) mode direction form
  | apply t delta mode direction => do
    let t ← t.resolve registers
    return .apply t (← delta.resolve registers) mode direction
  | compare a b => do
    let a ← a.resolve registers
    return .compare a (← b.resolve registers)
  | equal a b => do
    let a ← a.resolve registers
    return .equal a (← b.resolve registers)
  | write path content => .ok (.write path content)
  | remove path => .ok (.remove path)
  | makeDirectory path => .ok (.makeDirectory path)
  | setPackage present => .ok (.setPackage present)
  | settings environment configured => .ok (.settings environment configured)
  | resetSearchPath paths => .ok (.resetSearchPath paths)
  | clearCache keys => .ok (.clearCache keys)
  | getZone key => .ok (.getZone key)
  | cached => .ok .cached
  | available => .ok .available

end CivilTime.Script
