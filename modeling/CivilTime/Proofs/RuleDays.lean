import CivilTime.Calendar.Bijection
import CivilTime.Proofs.RuleGrammar

/-!
# The days of a rule exist

A rule in range names a day of every year of the calendar.

* `RuleDay.dayIn_in_year` says that the number of the day lies in the span of
  its year, whatever the year.
* `RuleDay.dateIn_eq_ok` says that the date of the day is found, and that it is
  the date of that number.
-/

namespace CivilTime

open ZoneRule (DayInRange)

/-- The days of a month lie in the span of its year. -/
theorem daysBeforeMonth_bounds (year : Int) {month : Int} (hfirst : 1 ≤ month)
    (hlast : month ≤ 12) :
    0 ≤ daysBeforeMonth year month ∧
      daysBeforeMonth year month + monthLength year month ≤ 365 + leapDay year := by
  have hleap := leapDay_cases year
  rcases month_cases hfirst hlast with rfl | rfl | rfl | rfl | rfl | rfl | rfl | rfl | rfl | rfl |
      rfl | rfl <;> simp [daysBeforeMonth, monthLength] <;> omega

namespace RuleDay

variable {rule : RuleDay}

theorem startMonth_range (h : DayInRange rule) : 1 ≤ rule.startMonth ∧ rule.startMonth ≤ 12 := by
  cases rule with
  | lastWeekday month weekday => exact h.1
  | nthWeekday month nth weekday => exact h.1
  | yearDay nth => exact ⟨by simp [startMonth], by simp [startMonth]⟩
  | julianDay nth => exact ⟨by simp [startMonth], by simp [startMonth]⟩

theorem checkMonth_eq_ok (h : DayInRange rule) : rule.checkMonth = .ok () := by
  cases rule with
  | lastWeekday month weekday =>
    have hmonth := h.1
    exact if_neg (by omega)
  | nthWeekday month nth weekday => rfl
  | yearDay nth => rfl
  | julianDay nth => rfl

/-- The day of a rule lies in its year. -/
theorem dayIn_in_year (h : DayInRange rule) (year : Int) :
    daysBeforeYear year < rule.dayIn year + epochOrdinal ∧
      rule.dayIn year + epochOrdinal ≤ daysBeforeYear (year + 1) := by
  have hleap := leapDay_cases year
  rw [daysBeforeYear_succ]
  cases rule with
  | lastWeekday month weekday =>
    -- The week that ends with the month's last day is part of the month.
    have hmonth := daysBeforeMonth_bounds year h.1.1 h.1.2
    have hlong := le_monthLength year month
    simp only [dayIn, Date.dayNumber, Date.ordinal]
    omega
  | nthWeekday month nth weekday =>
    -- Four weeks from the month's first day on are part of the month.
    obtain ⟨⟨hfirst, hlast⟩, ⟨hnth, hnth'⟩, -⟩ := h
    have hmonth := daysBeforeMonth_bounds year hfirst hlast
    have hlong := le_monthLength year month
    simp only [dayIn, Date.dayNumber, Date.ordinal]
    omega
  | yearDay nth =>
    have hnth : 1 ≤ nth ∧ nth ≤ 366 := h
    simp only [dayIn, Date.dayNumber, Date.ordinal, daysBeforeMonth]
    omega
  | julianDay nth =>
    have hnth : 1 ≤ nth ∧ nth ≤ 365 := h
    simp only [dayIn, Date.dayNumber, Date.ordinal, daysBeforeMonth]
    split <;> omega

/-- In every year of the calendar, the day of a rule has a date, which lies in that
year. -/
theorem dateIn_eq_ok (h : DayInRange rule) {year : Int} (hfirst : 1 ≤ year)
    (hlast : year ≤ 9999) :
    ∃ date, rule.dateIn year = .ok date ∧ date.Valid ∧ date.year = year ∧
      date.dayNumber = rule.dayIn year := by
  have hmonth := startMonth_range h
  have hlong := le_monthLength year rule.startMonth
  have hstart : (Date.mk year rule.startMonth 1).Valid :=
    ⟨hfirst, hlast, hmonth.1, hmonth.2, Int.le_refl 1, by dsimp only; omega⟩
  obtain ⟨hafter, hupTo⟩ := dayIn_in_year h year
  have hyear : (Date.ofDayNumber (rule.dayIn year)).year = year := yearOfOrdinal_eq hafter hupTo
  have hrange : 1 ≤ rule.dayIn year + epochOrdinal ∧
      rule.dayIn year + epochOrdinal ≤ lastOrdinal :=
    (Date.year_ofOrdinal_iff _).1 ⟨hyear.symm ▸ hfirst, hyear.symm ▸ hlast⟩
  have hmoved : (Date.mk year rule.startMonth 1).ordinal +
      (rule.dayIn year - (Date.mk year rule.startMonth 1).dayNumber) =
        rule.dayIn year + epochOrdinal := by
    simp only [Date.dayNumber]
    omega
  refine ⟨Date.ofDayNumber (rule.dayIn year), ?_, (Date.valid_ofOrdinal_iff _).2 hrange, hyear,
    Date.dayNumber_ofDayNumber _⟩
  have hadded : (Date.mk year rule.startMonth 1).addDays
      (rule.dayIn year - (Date.mk year rule.startMonth 1).dayNumber) =
        .ok (Date.ofDayNumber (rule.dayIn year)) := by
    rw [Date.addDays, hmoved, if_pos hrange]
    rfl
  rw [dateIn, checkMonth_eq_ok h]
  dsimp only [Bind.bind, Except.bind]
  rw [(Date.check_eq_ok_iff _).2 hstart]
  exact hadded

end RuleDay

end CivilTime
