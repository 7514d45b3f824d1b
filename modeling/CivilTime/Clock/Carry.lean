/-!
# Carrying between units

A value that is out of the range of its unit is brought into the range, and
what that moves is carried into the next larger unit.  Carrying floors: a
negative value borrows from the larger unit.

`carryInto` is the rule for any range.  For a range that is not reversed it
is the quotient and remainder that `carryInto_of_lt` states.
-/

namespace CivilTime

/-- The microseconds of a second. -/
def microsPerSecond : Int := 1000000

/-- Bring `value` into `[start, stop)` and carry whole ranges into `carry`:
the value in range, and the new carry. -/
def carryInto (start stop value carry : Int) : Int × Int :=
  ((value - start).fmod (stop - start) + start, carry + (value - start).fdiv (stop - start))

/-- Bring a microsecond count into a second, carrying into the seconds. -/
def carryMicroseconds (microsecond second : Int) : Int × Int :=
  carryInto 0 microsPerSecond microsecond second

theorem carryInto_of_lt {start stop : Int} (value carry : Int) (hordered : start < stop) :
    carryInto start stop value carry =
      ((value - start) % (stop - start) + start,
        carry + (value - start) / (stop - start)) := by
  have hwidth : 0 ≤ stop - start := by omega
  simp only [carryInto, Int.fmod_eq_emod_of_nonneg _ hwidth, Int.fdiv_eq_ediv_of_nonneg _ hwidth]

theorem carryMicroseconds_eq (microsecond second : Int) :
    carryMicroseconds microsecond second =
      (microsecond % 1000000, second + microsecond / 1000000) := by
  simp [carryMicroseconds, microsPerSecond, carryInto_of_lt]

/-- Carrying keeps the total. -/
theorem carryInto_total (start stop value carry : Int) :
    (carryInto start stop value carry).2 * (stop - start) +
        (carryInto start stop value carry).1 =
      carry * (stop - start) + value := by
  have hsplit := Int.fmod_add_mul_fdiv (value - start) (stop - start)
  simp only [carryInto]
  rw [Int.add_mul, Int.mul_comm ((value - start).fdiv (stop - start))]
  omega

end CivilTime
