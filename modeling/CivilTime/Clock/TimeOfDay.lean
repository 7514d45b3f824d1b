import CivilTime.Clock.Carry

/-!
# Time of day

Hours, minutes and seconds as one count of seconds, and that count cut back
into its parts.
-/

namespace CivilTime

/-- The seconds in a number of hours, minutes and seconds. -/
def clockSeconds (hour minute second : Int) : Int :=
  hour * 3600 + minute * 60 + second

/-- The hour of a second of the day. -/
def hourOf (seconds : Int) : Int := seconds / 3600

/-- The minute within the hour of a second of the day. -/
def minuteOf (seconds : Int) : Int := seconds % 3600 / 60

/-- The second within the minute of a second of the day. -/
def secondOf (seconds : Int) : Int := seconds % 3600 % 60

theorem clockSeconds_parts (seconds : Int) :
    clockSeconds (hourOf seconds) (minuteOf seconds) (secondOf seconds) = seconds := by
  unfold clockSeconds hourOf minuteOf secondOf
  omega

/-- Quotient and remainder of a division toward zero: the remainder has the
sign of the dividend. -/
def towardZero (a b : Int) : Int × Int :=
  (a.tdiv b, a.tmod b)

end CivilTime
