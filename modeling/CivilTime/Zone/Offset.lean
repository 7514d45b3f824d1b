import CivilTime.Failure

/-!
# Offsets

Offsets from UTC in seconds.  A `ClockOffset` is one of less than a day,
which is what fixed offsets and abbreviations accept.
-/

namespace CivilTime

/-- An offset with its sign, hours and minutes, and its seconds unless they
are zero. -/
def offsetText (seconds : Int) : String :=
  let size := seconds.natAbs
  let sign := if seconds < 0 then "-" else "+"
  let tail := if size % 60 = 0 then "" else ":" ++ Text.paddedNat 2 (size % 60)
  sign ++ Text.paddedNat 2 (size / 3600) ++ ":" ++ Text.paddedNat 2 (size % 3600 / 60) ++ tail

/-- An offset of less than a day in either direction. -/
structure ClockOffset where
  seconds : Int
  withinDay : seconds.natAbs < 86400
  deriving DecidableEq, Repr

namespace ClockOffset

/-- The offset of a number of seconds. -/
def ofSeconds (seconds : Int) : Except Failure ClockOffset :=
  if hwithin : seconds.natAbs < 86400 then .ok ⟨seconds, hwithin⟩
  else .error (.offsetRange seconds)

end ClockOffset

end CivilTime
