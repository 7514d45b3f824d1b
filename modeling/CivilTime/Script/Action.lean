import CivilTime.Note
import CivilTime.Script.Argument
import CivilTime.Script.Value
import CivilTime.Store.Basic

/-!
# Actions of scripts

Computations that may use the store.  An `Action` may change the store and
report notes, and gives a result or a failure.  What it changed and reported
before a failure stays.

A zone can be given by its key, so finding the zone that a value means is an
action (`Value.toZone`).
-/

namespace CivilTime.Script

/-- What actions change: the store, and the notes so far. -/
structure Effects where
  store : Store
  notes : List Note

/-- A computation that uses the store. -/
abbrev Action := ExceptT Failure (StateM Effects)

namespace Action

/-- The result of a computation that does not use the store. -/
def ofResult {α : Type} (r : Except Failure α) : Action α :=
  ExceptT.mk (pure r)

/-- A change of the store. -/
def update (f : Store → Store) : Action Unit :=
  modify fun e => { e with store := f e.store }

/-- Report notes. -/
def report (notes : List Note) : Action Unit :=
  modify fun e => { e with notes := e.notes ++ notes }

/-- The zone of a key, from the store. -/
def zoneOfKey (key : String) : Action ZoneData := do
  let (store, notes, result) := (← get).store.get key
  update fun _ => store
  report notes
  ofResult result

/-- The zone of a value that should be a key. -/
def zoneOfValue (key : Plain) : Action ZoneData := do
  ofResult key.checkKey
  match key with
  | .text key => zoneOfKey key
  | key => throw (.zoneNotFound key.written)

/-- Drop the cached zones of keys, in order.  A value that cannot be looked up
ends it. -/
def clearKeys (keys : List Plain) : Action Unit := do
  update fun s => s.clearKeys ((keys.takeWhile Plain.isKey).filterMap Plain.text?)
  match keys.find? (!·.isKey) with
  | some key => throw (.lookupKind key.kind)
  | none => return ()

end Action

namespace Value

/-- A named zone of a key or of zone data. -/
def namedZone (v : Value) : Action Zone := do
  match v with
  | plain (.text key) => return .named (← Action.zoneOfKey key)
  | zoneData data => return .named data
  | _ => throw .zoneDataKind

/-- A zone, or the named zone of a key. -/
def toZone (v : Value) : Action Zone := do
  match v with
  | plain (.text key) => return .named (← Action.zoneOfKey key)
  | zone z => return z
  | _ => throw (.zoneKind v.written)

/-- A delta to shift by. -/
def toDelta (v : Value) : Except Failure Delta :=
  match v with
  | delta d => .ok d
  | _ => .error (.deltaKind v.written)

/-- The moment that an operation of instants is asked of. -/
def toMoment (v : Value) : Except Failure Moment :=
  match v with
  | moment m => .ok m
  | _ => .error .noOperation

/-- The calendar fields of a moment or an interval. -/
def toFields (v : Value) : Except Failure Fields :=
  match v with
  | moment m => .ok m.fields
  | delta (.interval i) => .ok (Fields.ofAmounts i.amounts)
  | _ => .error .noOperation

end Value

end CivilTime.Script
