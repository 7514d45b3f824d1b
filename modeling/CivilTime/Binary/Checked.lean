import CivilTime.Binary.Nearest
import CivilTime.Failure

/-!
# Checked rounding

The floating-point numbers nearest to fractions and whole numbers, for callers
whose numbers may be too large for one.
-/

namespace CivilTime.Binary

/-- The floating-point number nearest to `num / den`. -/
def ofFraction (num : Int) (den : Nat) : Except Failure Float :=
  match nearest? num den with
  | some x => .ok x
  | none => .error .beyondBinary

/-- The floating-point number nearest to a whole number. -/
def ofWhole (n : Int) : Except Failure Float :=
  ofFraction n 1

end CivilTime.Binary
