import CivilTime.Binary.Checked

/-!
# Decimal hours

A time of day as one floating-point number of hours.
-/

namespace CivilTime

/-- The hours of a time of day.  Each smaller unit is added as the number
nearest to its fraction of an hour, from the largest unit down. -/
def decimalHour (hour minute second microsecond : Int) : Except Failure Float := do
  let hours ← Binary.ofWhole hour
  let minutes ← Binary.ofFraction minute 60
  let seconds ← Binary.ofFraction second 3600
  let microseconds ← Binary.ofFraction microsecond 3600000000
  return hours + minutes + seconds + microseconds

end CivilTime
