import CivilTime.Calendar.Checked

/-!
# Dates and day numbers correspond

`Date.ordinal` and `Date.ofOrdinal` undo each other, and the dates that exist
are those of the ordinals 1 to `lastOrdinal`.

* Years and months partition the days: `daysBeforeYear_mono` and
  `daysBeforeMonth_succ` are the lengths of the parts,
  `yearOfOrdinal_eq` and `monthOfYearDay_eq` find the part of a day.
* `Date.ordinal_ofOrdinal` and `Date.ofOrdinal_ordinal` are the two inverse
  laws, `Date.valid_ofOrdinal_iff` and `Date.ordinal_bounds` the range.
* `Date.toDayNumber_eq_ok_iff` and `Date.fromDayNumber_eq_ok_iff` say what the
  checked conversions accept.
-/

namespace CivilTime

/-! ## Years -/

/-- Every year has at least 365 days. -/
theorem daysBeforeYear_mono {year later : Int} (hbefore : year < later) :
    daysBeforeYear year + 365 ≤ daysBeforeYear later := by
  unfold daysBeforeYear
  omega

/-- A day in the span of a year is a day of that year. -/
theorem yearOfOrdinal_eq {year ordinal : Int} (hafter : daysBeforeYear year < ordinal)
    (hupTo : ordinal ≤ daysBeforeYear (year + 1)) : yearOfOrdinal ordinal = year := by
  have hbounds := yearOfOrdinal_bounds ordinal
  rcases Int.lt_trichotomy (yearOfOrdinal ordinal) year with hless | hsame | hgreater
  · rcases Int.lt_or_eq_of_le (Int.add_one_le_of_lt hless) with hgap | hnext
    · have hdays := daysBeforeYear_mono hgap
      omega
    · rw [hnext] at hbounds
      omega
  · exact hsame
  · rcases Int.lt_or_eq_of_le (Int.add_one_le_of_lt hgreater) with hgap | hnext
    · have hdays := daysBeforeYear_mono hgap
      omega
    · rw [← hnext] at hbounds
      omega

/-! ## Months -/

/-- The months one by one. -/
theorem month_cases {month : Int} (hfirst : 1 ≤ month) (hlast : month ≤ 12) :
    month = 1 ∨ month = 2 ∨ month = 3 ∨ month = 4 ∨ month = 5 ∨ month = 6 ∨ month = 7 ∨
      month = 8 ∨ month = 9 ∨ month = 10 ∨ month = 11 ∨ month = 12 := by
  omega

/-- A month is as long as the days between its first and the next first. -/
theorem daysBeforeMonth_succ (year : Int) {month : Int} (hfirst : 1 ≤ month)
    (hlast : month ≤ 11) :
    daysBeforeMonth year (month + 1) = daysBeforeMonth year month + monthLength year month := by
  rcases month_cases hfirst (by omega) with rfl | rfl | rfl | rfl | rfl | rfl | rfl | rfl | rfl |
      rfl | rfl | rfl <;> simp [daysBeforeMonth, monthLength] <;> omega

/-- The months fill the year. -/
theorem daysBeforeMonth_december (year : Int) :
    daysBeforeMonth year 12 + monthLength year 12 = 365 + leapDay year := by
  simp [daysBeforeMonth, monthLength]
  omega

/-- The days of a month are found in it. -/
theorem monthOfYearDay_eq (year : Int) {month day : Int} (hfirst : 1 ≤ month)
    (hlast : month ≤ 12) (hdayGe : 1 ≤ day) (hdayLe : day ≤ monthLength year month) :
    monthOfYearDay year (daysBeforeMonth year month + day - 1) = month := by
  have hleap := leapDay_cases year
  rcases month_cases hfirst hlast with rfl | rfl | rfl | rfl | rfl | rfl | rfl | rfl | rfl | rfl |
      rfl | rfl <;> simp [monthLength] at hdayLe <;> simp only [monthOfYearDay, daysBeforeMonth] <;>
    omega

/-- Every day of the year lies within the month that is found for it. -/
theorem monthOfYearDay_bounds (year : Int) {day : Int} (hfirst : 0 ≤ day)
    (hlast : day < 365 + leapDay year) :
    1 ≤ monthOfYearDay year day ∧ monthOfYearDay year day ≤ 12 ∧
      daysBeforeMonth year (monthOfYearDay year day) ≤ day ∧
      day < daysBeforeMonth year (monthOfYearDay year day) +
        monthLength year (monthOfYearDay year day) := by
  unfold daysBeforeMonth monthLength monthOfYearDay
  rcases leapDay_cases year with hleap | hleap <;> rw [hleap] at hlast ⊢ <;> omega

namespace Date

/-! ## The inverse laws -/

theorem ordinal_ofOrdinal (n : Int) : (ofOrdinal n).ordinal = n := by
  simp only [ofOrdinal, ordinal]
  omega

/-- The month and the day of the date of an ordinal are in range. -/
theorem ofOrdinal_fields (n : Int) :
    1 ≤ (ofOrdinal n).month ∧ (ofOrdinal n).month ≤ 12 ∧ 1 ≤ (ofOrdinal n).day ∧
      (ofOrdinal n).day ≤ monthLength (ofOrdinal n).year (ofOrdinal n).month := by
  have hyear := yearOfOrdinal_bounds n
  rw [daysBeforeYear_succ] at hyear
  have hmonth := @monthOfYearDay_bounds (yearOfOrdinal n)
    (n - 1 - daysBeforeYear (yearOfOrdinal n)) (by omega) (by omega)
  simp only [ofOrdinal]
  omega

/-- The ordinal of a date lies in its year. -/
theorem ordinal_in_year {date : Date} (hmonthGe : 1 ≤ date.month) (hmonthLe : date.month ≤ 12)
    (hdayGe : 1 ≤ date.day) (hdayLe : date.day ≤ monthLength date.year date.month) :
    daysBeforeYear date.year < date.ordinal ∧
      date.ordinal ≤ daysBeforeYear (date.year + 1) := by
  rw [daysBeforeYear_succ, ordinal]
  unfold daysBeforeMonth
  unfold monthLength at hdayLe
  rcases leapDay_cases date.year with hleap | hleap <;> rw [hleap] at hdayLe ⊢ <;> omega

theorem ofOrdinal_ordinal {date : Date} (hmonthGe : 1 ≤ date.month) (hmonthLe : date.month ≤ 12)
    (hdayGe : 1 ≤ date.day) (hdayLe : date.day ≤ monthLength date.year date.month) :
    ofOrdinal date.ordinal = date := by
  have hspan := ordinal_in_year hmonthGe hmonthLe hdayGe hdayLe
  have hyear := yearOfOrdinal_eq hspan.1 hspan.2
  have hyearDay : date.ordinal - 1 - daysBeforeYear date.year =
      daysBeforeMonth date.year date.month + date.day - 1 := by
    simp only [ordinal]
    omega
  have hmonth := monthOfYearDay_eq date.year hmonthGe hmonthLe hdayGe hdayLe
  simp only [ofOrdinal, hyear, hyearDay, hmonth]
  cases date
  simp only [mk.injEq, true_and]
  omega

/-! ## The range -/

/-- The ordinals of the years 1 to 9999 are 1 to `lastOrdinal`. -/
theorem year_ofOrdinal_iff (n : Int) :
    1 ≤ (ofOrdinal n).year ∧ (ofOrdinal n).year ≤ 9999 ↔ 1 ≤ n ∧ n ≤ lastOrdinal := by
  have hbounds := yearOfOrdinal_bounds n
  simp only [ofOrdinal, lastOrdinal]
  unfold daysBeforeYear at hbounds
  omega

theorem valid_ofOrdinal_iff (n : Int) : (ofOrdinal n).Valid ↔ 1 ≤ n ∧ n ≤ lastOrdinal := by
  have hfields := ofOrdinal_fields n
  rw [← year_ofOrdinal_iff]
  constructor
  · intro hvalid
    exact ⟨hvalid.year_ge, hvalid.year_le⟩
  · intro hyears
    exact ⟨hyears.1, hyears.2, hfields.1, hfields.2.1, hfields.2.2.1, hfields.2.2.2⟩

theorem ordinal_bounds {date : Date} (hvalid : date.Valid) :
    1 ≤ date.ordinal ∧ date.ordinal ≤ lastOrdinal := by
  rw [← valid_ofOrdinal_iff,
    ofOrdinal_ordinal hvalid.month_ge hvalid.month_le hvalid.day_ge hvalid.day_le]
  exact hvalid

theorem dayNumber_ofDayNumber (day : Int) : (ofDayNumber day).dayNumber = day := by
  rw [ofDayNumber, dayNumber, ordinal_ofOrdinal]
  omega

theorem ofDayNumber_dayNumber {date : Date} (hvalid : date.Valid) :
    ofDayNumber date.dayNumber = date := by
  rw [ofDayNumber, dayNumber, Int.sub_add_cancel]
  exact ofOrdinal_ordinal hvalid.month_ge hvalid.month_le hvalid.day_ge hvalid.day_le

-- Where the days are counted from, and the last date that has an ordinal.
example : (Date.mk 1970 1 1).dayNumber = 0 ∧ (Date.mk 9999 12 31).ordinal = lastOrdinal := by
  decide

/-! ## The checked conversions -/

theorem toDayNumber_eq_ok_iff (date : Date) (day : Int) :
    date.toDayNumber = .ok day ↔ date.Valid ∧ day = date.dayNumber := by
  unfold toDayNumber
  rw [← check_eq_ok_iff]
  cases hcheck : date.check with
  | ok _ => simp [eq_comm]
  | error failure => cases failure <;> simp

theorem fromDayNumber_eq_ok_iff (day : Int) (date : Date) :
    fromDayNumber day = .ok date ↔ date.Valid ∧ date.dayNumber = day := by
  unfold fromDayNumber
  constructor
  · intro hconverted
    split at hconverted
    · next hrange =>
      obtain rfl := Except.ok.inj hconverted
      exact ⟨(valid_ofOrdinal_iff _).2 hrange, dayNumber_ofDayNumber day⟩
    · contradiction
  · rintro ⟨hvalid, rfl⟩
    have hrange := ordinal_bounds hvalid
    rw [if_pos (by unfold dayNumber; omega), ofDayNumber_dayNumber hvalid]

end Date

end CivilTime
