import CivilTime.Script.Action

/-!
# Operators of scripts

What the signs `+`, `-` and `<` give between values of a script.

Between moments and deltas they shift and take differences.  Between plain
values they compute with numbers and join texts and lists.  All other operands
are refused, with the kinds of both in the failure.
-/

namespace CivilTime.Script

namespace Plain

/-- The fault of adding something of another kind to a plain value. -/
def sumFault (left : Plain) (right : String) : Failure :=
  match left with
  | text _ | list _ => .joined left.kind right
  | null | number _ | record _ => .operands "+" left.kind right

/-- The sum of two numbers, or two texts or lists joined. -/
def plus (left right : Plain) : Except Failure Plain :=
  match left, right with
  | number m, number n => do return number (← m.add n)
  | text s, text t => .ok (text (s ++ t))
  | list xs, list ys => .ok (list (xs ++ ys))
  | left, right => .error (left.sumFault right.kind)

/-- The difference of two numbers. -/
def minus (left right : Plain) : Except Failure Plain :=
  match left, right with
  | number m, number n => do return number (← m.subtract n)
  | left, right => .error (.operands "-" left.kind right.kind)

end Plain

namespace Value

/-- The value of an interval, and its notes. -/
def ofDifference (r : Except Failure (Interval × List Note)) : Action Value := do
  let (i, notes) ← Action.ofResult r
  Action.report notes
  return .delta (.interval i)

/-- The interval between two values, which have to be moments. -/
def difference (a b : Value) : Action Value :=
  match a, b with
  | moment m, moment n => ofDifference (m.diff n)
  | _, _ => throw .differenceKind

/-- Shift a value, which has to be a moment, by another, which has to be a
delta and is looked at first.  An interval in place of the moment moves as far
as it needs no zone. -/
def shiftBy (t delta : Value) (mode : ShiftMode) (direction : ShiftDirection) :
    Except Failure Value := do
  let d ← delta.toDelta
  match t with
  | moment m => return .moment (← m.shift d mode direction)
  | t =>
    (← t.toFields).checkShift (d.movement (direction = .backward)) mode
    .error .noOperation

/-- What the minus sign gives: an interval between moments, a moment shifted
back, or a difference of numbers. -/
def minus (left right : Value) : Action Value :=
  match left, right with
  | moment m, moment n => ofDifference (n.diff m)
  | moment m, delta d => do
    return .moment (← Action.ofResult (m.shift d .absolute .backward))
  | plain p, plain q => do return .plain (← Action.ofResult (p.minus q))
  | _, _ => throw (.operands "-" left.kind right.kind)

/-- What the plus sign gives: a moment shifted forward, or the sum of plain
values. -/
def plus (left right : Value) : Except Failure Value :=
  match left, right with
  | moment m, delta d => do return .moment (← m.shift d .absolute .forward)
  | plain p, plain q => do return .plain (← p.plus q)
  | plain p, right => .error (p.sumFault right.kind)
  | left, right => .error (.operands "+" left.kind right.kind)

/-- Turn a value round: a delta, or a number. -/
def opposite (v : Value) : Except Failure Value :=
  match v with
  | delta d => .ok (.delta d.negate)
  | plain (.number n) => .ok (.plain (.number n.opposite))
  | v => .error (.opposite v.kind)

/-- All comparisons of two moments. -/
def comparisons (a b : Value) : Except Failure Value :=
  match a, b with
  | moment m, moment n =>
    .ok (.plain (.record [
      ("eq", .bool (m.sameTime n)), ("ne", .bool !(m.sameTime n)),
      ("lt", .bool (m.earlierThan n)), ("le", .bool !(n.earlierThan m)),
      ("gt", .bool (n.earlierThan m)), ("ge", .bool !(m.earlierThan n)),
      ("exact_eq", .bool (m.sameAs n))]))
  | plain p, plain q =>
    match p.unordered? q with
    | some (left, right) => .error (.order "<" left right)
    | none => .error .noOperation
  | _, _ => .error (.order "<" a.kind b.kind)

end Value

end CivilTime.Script
