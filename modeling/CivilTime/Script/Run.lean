import CivilTime.Script.Making
import CivilTime.Script.Operator
import CivilTime.Script.Step

/-!
# Running scripts

What each step of a script does.

* `Step.perform` is the action of a step whose arguments are values.
* `Session.run` runs one step as it is written and sets its register, and
  `Session.runAll` runs a script.
-/

namespace CivilTime.Script

/-- What a zone says about exact and local times. -/
structure Lookups where
  exactTimes : List (Except Failure (Int × Bool) × Except Failure (Option OffsetPeriod))
  localTimes : List (Except Failure LocalTime)

/-- The result of a step. -/
inductive Answer where
  | value (v : Value)
  | lookups (l : Lookups)

/-- The outcome of a step. -/
inductive Outcome where
  /-- A register that the step needs was not set. -/
  | skipped (register : String)
  | failed (failure : Failure)
  | answered (a : Answer)

/-- The outcome of a step, and what it reported. -/
structure Reply where
  notes : List Note
  outcome : Outcome

/-- The store, and the registers set so far. -/
structure Session where
  store : Store
  registers : Registers

/-! ## Steps -/

/-- What a zone says about exact and local times. -/
def lookupsOf (z : ZoneData) (exactTimes localTimes : List Int) : Lookups where
  exactTimes := exactTimes.map fun t => (z.offsetAt t, z.periodAt t)
  localTimes := localTimes.map z.localTimeAt

/-- Calendar fields after a movement: none, seven numbers, or a move of the
date. -/
def movedFields (f : Fields) (movement : Value) : Except Failure Fields :=
  match movement with
  | .plain .null => .ok f
  | .plain (.list items) => f.plus items
  | .delta (.weekday w) => f.move (.weekday w)
  | .delta (.special s) => f.move (.special s)
  | movement => .error (.movementKind movement.written)

/-- A moment at its reading after a movement.  An interval in place of the
moment moves as far as it needs no zone. -/
def atMovement (t movement : Value) (choice : Choice) : Except Failure Moment := do
  let f ← movedFields (← t.toFields) movement
  match t with
  | .moment m => m.atFields f choice
  | _ => do
    f.check
    .error .noOperation

/-- The result that is a value of a computation without the store. -/
def resultOf (r : Except Failure Value) : Action Answer := do
  return .value (← Action.ofResult r)

/-- The result that is a value. -/
def valueOf (a : Action Value) : Action Answer := do
  return .value (← a)

/-- The result that is a moment. -/
def momentOf (a : Action Moment) : Action Answer := do
  return .value (.moment (← a))

/-- The result that is a list of texts. -/
def textsOf (names : List String) : Answer := .value (.plain (.texts names))

/-- The result that says nothing. -/
def done : Answer := .value (.plain .null)

/-- What a step does. -/
def Step.perform : Step Value → Action Answer
  | fixedZone offset => resultOf do return .zone (.fixed (← offset.clockOffset))
  | abbreviationZone arguments => resultOf do return .zone (← Plain.abbreviation arguments)
  | ruleZone rule key => resultOf do
    return .zone (.named (ZoneData.ofRule key (← rule.zoneRule)))
  | fileZone bytes key => resultOf do return .zone (.named (← ZoneFile.decode key bytes))
  | namedZone source => do return .value (.zone (← source.namedZone))
  | lookup zone exactTimes localTimes =>
    match zone with
    | .zone (.named data) => return .lookups (lookupsOf data exactTimes localTimes)
    | _ => throw .noOperation
  | interval components inverted => resultOf do
    return .delta (.interval (← Plain.interval components inverted))
  | weekday day count => resultOf do return .delta (.weekday (← day.weekdayMove count))
  | special kind amount => resultOf do return .delta (.special (← kind.givenMove amount))
  | specialNamed name amount => resultOf do return .delta (.special (← name.namedMove amount))
  | negate x => resultOf x.opposite
  | ofReading fields microsecond zone choice =>
    momentOf (momentOfList fields microsecond zone choice)
  | ofTimestamp seconds microsecond zone => momentOf do
    let (epoch, microsecond) ← Action.ofResult (seconds.timestamp microsecond)
    if microsecond < 0 ∨ microsPerSecond ≤ microsecond then throw .microsecond
    let zone ← zone.toZone
    return Moment.ofInstant (← Action.ofResult (Instant.ofTimestamp zone epoch microsecond))
  | inZone t zone => momentOf do
    let m ← Action.ofResult t.toMoment
    Action.ofResult (m.inZone (← zone.toZone))
  | replace fields t choice => momentOf do
    match t with
    | .moment m => m.replace fields choice
    | t => throw (t.replacementFault (!fields.isEmpty || choice.isSome))
  | atMoved movement t choice => resultOf do
    return .moment (← atMovement t movement (Plain.choice choice))
  | reread t => resultOf do return .moment (← (← t.toMoment).reread)
  | diff a b .function => valueOf (a.difference b)
  | diff a b .method => valueOf do
    let _ ← Action.ofResult a.toMoment
    a.difference b
  | diff a b .operator => valueOf (b.minus a)
  | shift t delta mode direction .function => resultOf (t.shiftBy delta mode direction)
  | shift t delta mode direction .method => resultOf do
    let _ ← t.toMoment
    t.shiftBy delta mode direction
  | shift t delta _ .forward .operator => resultOf (t.plus delta)
  | shift t delta _ .backward .operator => valueOf (t.minus delta)
  | apply t delta mode direction => resultOf do
    let (mode, direction) ← mode.shiftNames direction
    t.shiftBy delta mode direction
  | compare a b => resultOf (a.comparisons b)
  | equal a b => return .value (.plain (.bool (a.sameAs b)))
  | write path content => do
    Action.update fun s =>
      { s with root := s.root.write content (Directory.pathNames path) }
    return done
  | remove path => do
    Action.update fun s => { s with root := s.root.remove (Directory.pathNames path) }
    return done
  | makeDirectory path => do
    Action.update fun s => { s with root := s.root.makeDirectory (Directory.pathNames path) }
    return done
  | setPackage present => do
    Action.update fun s => { s with hasPackage := present }
    return done
  | settings environment configured => do
    Action.update fun s => { s with environment, configured }
    return done
  | resetSearchPath paths => do
    match paths with
    | .null => Action.update Store.resetSearchPath
    | paths => do
      let searchPath ← Action.ofResult paths.searchPath
      Action.update fun s => { s with searchPath }
    return textsOf (← get).store.searchPath
  | clearCache keys => do
    match keys with
    | .null => do
      Action.report [.clearedAll]
      Action.update Store.clear
    | keys => do
      let keys ← Action.ofResult keys.items
      Action.report [.clearedKeys (keys.map Plain.written)]
      Action.clearKeys keys
    return done
  | getZone key => do return .value (.zoneData (← Action.zoneOfValue key))
  | cached => do return textsOf (← get).store.cache.keys
  | available => do return textsOf (← Action.ofResult (← get).store.available)

/-! ## Sessions -/

/-- What a register holds after an answer. -/
def Answer.registered : Answer → Value
  | value v => v
  | lookups _ => .plain .null

namespace Session

/-- A session without files, zones and registers. -/
def initial : Session := ⟨Store.initial, []⟩

/-- The session after a step that ended well, with its register set. -/
def assign (s : Session) (register : Option String) (a : Answer) : Session :=
  match register with
  | some name => { s with registers := (name, a.registered) :: s.registers }
  | none => s

/-- Run one step and set its register to the result. -/
def run (s : Session) (step : Step Argument) (register : Option String) : Session × Reply :=
  match step.resolve s.registers with
  | .error name => (s, ⟨[], .skipped name⟩)
  | .ok step =>
    match (step.perform.run).run ⟨s.store, []⟩ with
    | (.ok answer, effects) =>
      (({ s with store := effects.store } : Session).assign register answer,
        ⟨effects.notes, .answered answer⟩)
    | (.error failure, effects) =>
      ({ s with store := effects.store }, ⟨effects.notes, .failed failure⟩)

/-- Run the steps of a script, each with the register for its result. -/
def runAll (s : Session) : List (Step Argument × Option String) → List Reply
  | [] => []
  | (step, register) :: rest =>
    let (s, reply) := s.run step register
    reply :: s.runAll rest

end Session

end CivilTime.Script
