import CivilTime.Reading.Normalize

/-!
# Intervals

Signed amounts of calendar units, with a direction.  `Interval.signed` gives
the amounts as they are added.  `Interval.negate` turns the direction round, and
turning it twice gives the interval back (`Interval.negate_negate`).

An interval that is the difference of two instants also holds the number of
whole days between them; two intervals are equal without regard to it
(`Interval.sameAs`).
-/

namespace CivilTime

/-- Amounts with a direction. -/
structure Interval where
  amounts : Amounts
  /-- Whether the amounts count backward. -/
  inverted : Bool
  /-- The whole days between two instants, for the difference of two. -/
  totalDays : Option Int
  deriving DecidableEq, Repr

namespace Interval

/-- The amounts to add, for an interval taken in its own direction
(`factor` 1) or against it (`factor` -1). -/
def signed (i : Interval) (factor : Int) : Amounts :=
  i.amounts.scale (if i.inverted then -factor else factor)

/-- The interval in the other direction. -/
def negate (i : Interval) : Interval :=
  { i with inverted := !i.inverted }

/-- Whether amounts and direction agree. -/
def sameAs (i j : Interval) : Bool :=
  i.amounts = j.amounts && i.inverted = j.inverted

/-- The written form of the amounts that are not zero. -/
def amountsText (a : Amounts) : List String :=
  (Amounts.names.zip a.toList).filterMap fun (name, amount) =>
    if amount = 0 then none else some (name ++ "=" ++ toString amount)

/-- The written form. -/
def text (i : Interval) : String :=
  let direction := if i.inverted then ["invert=True"] else []
  let days := match i.totalDays with
    | some days => ["total_days=" ++ toString days]
    | none => []
  "Interval(" ++ ", ".intercalate (amountsText i.amounts ++ direction ++ days) ++ ")"

theorem negate_negate (i : Interval) : i.negate.negate = i := by
  simp [negate]

/-- An interval that counts forward is added by its own amounts. -/
theorem signed_forward (a : Amounts) (totalDays : Option Int) :
    (Interval.mk a false totalDays).signed 1 = a := by
  simp [signed, Amounts.scale]

end Interval

end CivilTime
