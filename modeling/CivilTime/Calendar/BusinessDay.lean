/-!
# Business days

Monday to Friday are business days.  `addBusinessDays` moves by a number of
them: it jumps over whole weeks, five business days each, and walks what is
left day by day (`walkBusinessDays`).

A start on a weekend counts from the business day behind the movement
(`countingStart`).
-/

namespace CivilTime

/-- Whether a day is one of Monday to Friday. -/
def isBusinessDay (day : Int) : Bool :=
  (day + 3) % 7 < 5

/-- One day ahead, or one day back. -/
def dayStep (forward : Bool) : Int :=
  if forward then 1 else -1

/-- The day from which business days are counted: the day itself, or for a day
on a weekend the Friday before it, and the Monday after it when moving
back. -/
def countingStart (forward : Bool) (day : Int) : Int :=
  let weekday := (day + 3) % 7
  if weekday < 5 then day
  else if forward then day + (4 - weekday)
  else day + (7 - weekday)

/-- The days of a weekend that come next in the direction of a movement. -/
def weekendAhead (forward : Bool) (day : Int) : Nat :=
  if forward then (6 - (day + 3) % 7).toNat else ((day + 5) % 7).toNat

/-- A step onto a weekend leaves one day less of it. -/
theorem weekendAhead_lt {forward : Bool} {day : Int}
    (hweekend : ¬isBusinessDay (day + dayStep forward) = true) :
    weekendAhead forward (day + dayStep forward) < weekendAhead forward day := by
  simp only [isBusinessDay, decide_eq_true_eq] at hweekend
  cases forward with
  | true =>
    simp only [weekendAhead, dayStep, if_true] at *
    omega
  | false =>
    simp only [weekendAhead, dayStep, Bool.false_eq_true, if_false] at *
    omega

/-- Walk day by day until a number of business days has been met. -/
def walkBusinessDays (forward : Bool) (day : Int) (remaining : Nat) : Int :=
  match remaining with
  | 0 => day
  | left + 1 =>
    if isBusinessDay (day + dayStep forward) then
      walkBusinessDays forward (day + dayStep forward) left
    else walkBusinessDays forward (day + dayStep forward) (left + 1)
termination_by (remaining, weekendAhead forward day)
decreasing_by
  · exact Prod.Lex.left _ _ (Nat.lt_succ_self left)
  · exact Prod.Lex.right _ (weekendAhead_lt ‹_›)

/-- The day that lies a signed number of business days away. -/
def addBusinessDays (day count : Int) : Int :=
  if count = 0 then day
  else
    let forward : Bool := 0 < count
    let weeks : Int := count.natAbs / 5
    walkBusinessDays forward (countingStart forward day + 7 * weeks * dayStep forward)
      (count.natAbs % 5)

end CivilTime
