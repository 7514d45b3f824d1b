import CivilTime.Proofs.ReadingDifference

/-!
# Sums of readings and amounts

`Reading.microTotal_plus` says what amounts add to the total of a reading: their months lead to the
first day of another month, and the rest is a number of days and a time of day.  The two parts are
looked at one by one here.

* `Reading.normalize_plus_iff_of_noMonths` is about amounts without months.  They add up with the
  total, whatever their signs.
* `Reading.eq_onDate_of_microTotal` finds the month that a total lies in.  Months alone keep a day
  that every month has (`Reading.eq_onDate_of_months`), and go past a month that is too short
  for the day (`Reading.eq_onDate_of_pastMonth`).
-/

namespace CivilTime

namespace Reading

variable {r s : Reading} {a : Amounts}

/-! ## Amounts without months -/

/-- Amounts without months add the time that they stand for. -/
theorem microTotal_plus_of_noMonths (r : Reading) (hyears : a.years = 0) (hmonths : a.months = 0) :
    (r.plus a).microTotal = r.microTotal + (a.days * 86400000000 + a.timeMicros) := by
  rw [microTotal_plus, hyears, hmonths, Int.mul_zero, Int.add_zero, Int.add_zero, Int.sub_self]
  omega

/-- Amounts without months lead from a valid reading to the valid one that lies so much later. -/
theorem normalize_plus_iff_of_noMonths (hr : r.Valid) (hyears : a.years = 0)
    (hmonths : a.months = 0) :
    (r.plus a).normalize = .ok s ↔
      s.Valid ∧ s.microTotal = r.microTotal + (a.days * 86400000000 + a.timeMicros) := by
  have hindex : monthIndex (r.plus a).year (r.plus a).month = monthIndex r.year r.month := by
    simp only [plus, hyears, hmonths, Int.add_zero]
  rw [normalize_eq_ok_iff, microTotal_plus_of_noMonths r hyears hmonths, hindex]
  exact and_iff_right (monthYear_bounds hr)

/-! ## The month of a total -/

/-- A day between the first days of two months in a row lies in the earlier one. -/
theorem monthIndex_of_dayNumber (hs : s.Valid) {index : Int}
    (hfirst : firstDay index ≤ s.date.dayNumber) (hnext : s.date.dayNumber < firstDay (index + 1)) :
    monthIndex s.year s.month = index := by
  have hday := dayNumber_eq_firstDay hs.date.month_ge hs.date.month_le
  have hlength := monthLength_eq s.year hs.date.month_ge hs.date.month_le
  have hge := hs.date.day_ge
  have hle := hs.date.day_le
  simp only [date] at hday hlength hge hle
  rcases Int.lt_trichotomy (monthIndex s.year s.month) index with hless | hsame | hmore
  · have hmonths := firstDay_mono (Int.add_one_le_of_lt hless)
    simp only [date] at hfirst
    omega
  · exact hsame
  · have hmonths := firstDay_mono (Int.add_one_le_of_lt hmore)
    simp only [date] at hnext
    omega

/-- The total of a reading on a day counted from the first of a month. -/
theorem microTotal_onDate (r : Reading) (index day : Int) :
    (r.onDate ⟨index / 12, index % 12 + 1, day⟩).microTotal =
      ((firstDay index + day - 1) * 86400 + r.daySeconds) * 1000000 + r.microsecond := by
  simp only [microTotal, dayTotal, onDate, monthIndex_of_parts]
  rfl

/-- A valid reading with the total of a day of a month and of the time of day of another reading is
that one on the date of the day. -/
theorem eq_onDate_of_microTotal (hr : r.Valid) (hs : s.Valid) {index day : Int} (hfirst : 1 ≤ day)
    (hlast : day ≤ lengthOf index)
    (htotal : s.microTotal = ((firstDay index + day - 1) * 86400 + r.daySeconds) * 1000000 +
      r.microsecond) :
    s = r.onDate ⟨index / 12, index % 12 + 1, day⟩ := by
  have hseconds := daySeconds_bounds hr
  have hmicro := hr.microsecond
  have hday : s.date.dayNumber = firstDay index + day - 1 := by
    rw [dayNumber_eq_div hs]
    omega
  have hindex : monthIndex s.year s.month = index := by
    apply monthIndex_of_dayNumber hs
    · omega
    · rw [firstDay_succ]
      omega
  obtain ⟨hyear, hmonth⟩ := monthIndex_parts s.year hs.date.month_ge hs.date.month_le
  simp only [date, hindex] at hyear hmonth
  have hdate : Date.Valid ⟨index / 12, index % 12 + 1, day⟩ := by
    rw [lengthOf, hyear, hmonth] at hlast
    rw [hyear, hmonth]
    exact ⟨hs.date.year_ge, hs.date.year_le, hs.date.month_ge, hs.date.month_le, hfirst, hlast⟩
  refine eq_of_microTotal hs ⟨hdate, hr.hour, hr.minute, hr.second, hr.microsecond⟩ ?_
  rw [htotal, microTotal_onDate]

/-! ## Months alone -/

/-- Months lead to the same day and time of day, counted from the first of another month. -/
theorem microTotal_plus_months (r : Reading) (years months : Int) :
    (r.plus { years, months }).microTotal =
      ((firstDay (monthIndex r.year r.month + 12 * years + months) + r.day - 1) * 86400 +
        r.daySeconds) * 1000000 + r.microsecond := by
  have hnone : Amounts.timeMicros { years, months } = 0 := rfl
  rw [microTotal_plus, hnone]
  simp only [microTotal, dayTotal, Int.add_zero]
  omega

/-- Months lead to the day itself, if every month has it. -/
theorem eq_onDate_of_months (hr : r.Valid) (hday : r.day ≤ 28) {years months : Int}
    (h : (r.plus { years, months }).normalize = .ok s) :
    s = r.onDate ⟨(monthIndex r.year r.month + 12 * years + months) / 12,
      (monthIndex r.year r.month + 12 * years + months) % 12 + 1, r.day⟩ := by
  obtain ⟨-, hs, htotal⟩ := valid_of_normalize h
  rw [microTotal_plus_months] at htotal
  exact eq_onDate_of_microTotal hr hs hr.date.day_ge (Int.le_trans hday (le_monthLength _ _)) htotal

/-- Months lead past the end of the month reached, if it is too short for the day. -/
theorem eq_onDate_of_pastMonth (hr : r.Valid) {months : Int}
    (hday : lengthOf (monthIndex r.year r.month + months) < r.day)
    (h : (r.plus { months }).normalize = .ok s) :
    s = r.onDate ⟨(monthIndex r.year r.month + months + 1) / 12,
      (monthIndex r.year r.month + months + 1) % 12 + 1,
      r.day - lengthOf (monthIndex r.year r.month + months)⟩ := by
  obtain ⟨-, hs, htotal⟩ := valid_of_normalize h
  have hle : r.day ≤ monthLength r.year r.month := hr.date.day_le
  have hlong := monthLength_le r.year r.month
  have hnext : 28 ≤ lengthOf (monthIndex r.year r.month + months + 1) := le_monthLength _ _
  have hshort : 28 ≤ lengthOf (monthIndex r.year r.month + months) := le_monthLength _ _
  refine eq_onDate_of_microTotal hr hs (by omega) (by omega) ?_
  rw [htotal, microTotal_plus_months, firstDay_succ, Int.mul_zero, Int.add_zero]
  omega

end Reading

end CivilTime
