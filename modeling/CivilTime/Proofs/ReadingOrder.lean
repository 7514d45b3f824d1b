import CivilTime.Proofs.DatesInOrder

/-!
# The order of readings

Readings are compared unit by unit, from the largest down.  For valid readings
that is the order of what they stand for.

* `Reading.before_iff_fields` puts the seven comparisons into three: months in a
  row, days of the month, microseconds of the day.
* `Reading.dayTotal_lt_iff` orders the dates.
* `Reading.before_iff` is the result.
-/

namespace CivilTime.Reading

variable {r s : Reading}

theorem dayMicroseconds_bounds (h : r.Valid) :
    0 ≤ r.dayMicroseconds ∧ r.dayMicroseconds < 86400000000 := by
  have hseconds := daySeconds_bounds h
  have hmicro := h.microsecond
  unfold dayMicroseconds
  omega

/-- Units that fill each other without a rest are compared as one. -/
theorem before_iff_fields (hr : r.Valid) (hs : s.Valid) :
    r.before s = true ↔
      monthIndex r.year r.month < monthIndex s.year s.month ∨
        monthIndex r.year r.month = monthIndex s.year s.month ∧
          (r.day < s.day ∨ r.day = s.day ∧ r.dayMicroseconds < s.dayMicroseconds) := by
  have hrmonth := And.intro hr.date.month_ge hr.date.month_le
  have hsmonth := And.intro hs.date.month_ge hs.date.month_le
  obtain ⟨-, hrhour, hrminute, hrsecond, hrmicro⟩ := hr
  obtain ⟨-, hshour, hsminute, hssecond, hsmicro⟩ := hs
  simp only [date] at hrmonth hsmonth
  simp only [before, toList, listBefore, Bool.or_eq_true, Bool.and_eq_true, decide_eq_true_eq,
    Bool.false_eq_true, and_false, or_false, monthIndex, dayMicroseconds, daySeconds, clockSeconds]
  omega

/-- Dates come in the order of their months, and then of their days. -/
theorem dayTotal_lt_iff (hr : r.Valid) (hs : s.Valid) :
    r.dayTotal < s.dayTotal ↔
      monthIndex r.year r.month < monthIndex s.year s.month ∨
        monthIndex r.year r.month = monthIndex s.year s.month ∧ r.day < s.day := by
  rw [dayTotal_of_valid hr, dayTotal_of_valid hs, ← Date.before_iff hr.date hs.date]
  exact Date.before_iff_month hr.date hs.date

theorem date_eq_iff (hr : r.Valid) (hs : s.Valid) : r.date = s.date ↔ r.dayTotal = s.dayTotal := by
  rw [dayTotal_of_valid hr, dayTotal_of_valid hs]
  exact ⟨congrArg Date.dayNumber, Date.eq_of_dayNumber hr.date hs.date⟩

/-- The order of valid readings is the order of what they stand for. -/
theorem before_iff (hr : r.Valid) (hs : s.Valid) :
    r.before s = true ↔ r.microTotal < s.microTotal := by
  have hless := dayTotal_lt_iff hr hs
  have hmore := dayTotal_lt_iff hs hr
  have hrday := dayMicroseconds_bounds hr
  have hsday := dayMicroseconds_bounds hs
  have hrtotal : r.microTotal = r.dayTotal * 86400000000 + r.dayMicroseconds := by
    unfold microTotal dayMicroseconds
    omega
  have hstotal : s.microTotal = s.dayTotal * 86400000000 + s.dayMicroseconds := by
    unfold microTotal dayMicroseconds
    omega
  rw [before_iff_fields hr hs, hrtotal, hstotal]
  omega

theorem before_eq_false_iff (hr : r.Valid) (hs : s.Valid) :
    r.before s = false ↔ s.microTotal ≤ r.microTotal := by
  rw [← Bool.not_eq_true, before_iff hr hs, Int.not_lt]

end CivilTime.Reading
