import CivilTime.Proofs.ReadingDifference

/-!
# Dates in the order of their days

Day numbers count the dates of the calendar one by one, without a gap.

* `Date.Before` compares dates by their fields, and `Date.before_iff` says that this is the order
  of their day numbers.  `Date.inMonth_iff` is the case of the dates of one month.
* `Date.next` is the date after a date by the lengths of the months alone, and
  `Date.ofDayNumber_succ` says that it is the date of the next day number.
* `Date.valid_ofDayNumber_iff` gives the day numbers that have a date.
  `Date.category_of_toDayNumber` and `Date.category_of_fromDayNumber` say what everything else is
  refused as.
* `Date.conversions_exact` puts that together.
-/

namespace CivilTime.Date

variable {date later : Date} {day : Int} {failure : Failure}

/-! ## The order of dates -/

/-- A date comes before another by its year; in the same year by its month, and in the same month by
its day. -/
def Before (date later : Date) : Prop :=
  date.year < later.year ∨
    date.year = later.year ∧
      (date.month < later.month ∨ date.month = later.month ∧ date.day < later.day)

instance (date later : Date) : Decidable (date.Before later) :=
  inferInstanceAs (Decidable (_ ∨ _))

/-- Years and months are compared as one, by the number of the month. -/
theorem before_iff_month (h : date.Valid) (h' : later.Valid) :
    date.Before later ↔
      monthIndex date.year date.month < monthIndex later.year later.month ∨
        monthIndex date.year date.month = monthIndex later.year later.month ∧
          date.day < later.day := by
  have hmonth := And.intro h.month_ge h.month_le
  have hmonth' := And.intro h'.month_ge h'.month_le
  unfold Before monthIndex
  omega

/-- A date of an earlier month comes before the first of the later month. -/
theorem dayNumber_lt_of_month (h : date.Valid) (h' : later.Valid)
    (hlt : monthIndex date.year date.month < monthIndex later.year later.month) :
    date.dayNumber < later.dayNumber := by
  have hmonths := firstDay_mono (Int.add_one_le_of_lt hlt)
  have hlength := monthLength_eq date.year h.month_ge h.month_le
  have hlast := h.day_le
  have hfirst := h'.day_ge
  rw [dayNumber_eq_firstDay h.month_ge h.month_le, dayNumber_eq_firstDay h'.month_ge h'.month_le]
  omega

/-- Dates come in the order of their day numbers. -/
theorem before_iff (h : date.Valid) (h' : later.Valid) :
    date.Before later ↔ date.dayNumber < later.dayNumber := by
  have hday := dayNumber_eq_firstDay h.month_ge h.month_le
  have hday' := dayNumber_eq_firstDay h'.month_ge h'.month_le
  rw [before_iff_month h h']
  rcases Int.lt_trichotomy (monthIndex date.year date.month)
    (monthIndex later.year later.month) with hlt | heq | hgt
  · have hdays := dayNumber_lt_of_month h h' hlt
    omega
  · rw [hday, hday', heq]
    omega
  · have hdays := dayNumber_lt_of_month h' h hgt
    omega

/-- Dates are told apart by their day numbers. -/
theorem eq_of_dayNumber (h : date.Valid) (h' : later.Valid)
    (heq : date.dayNumber = later.dayNumber) : date = later := by
  rw [← ofDayNumber_dayNumber h, heq, ofDayNumber_dayNumber h']

/-! ## The dates of a month -/

/-- The first and the last day of a month are dates where its year lies in the calendar. -/
theorem valid_month_ends {year month : Int} (hyear : 1 ≤ year ∧ year ≤ 9999)
    (hmonth : 1 ≤ month ∧ month ≤ 12) :
    (Date.mk year month 1).Valid ∧ (Date.mk year month (monthLength year month)).Valid := by
  have hlength := le_monthLength year month
  refine ⟨⟨hyear.1, hyear.2, hmonth.1, hmonth.2, Int.le_refl 1, ?_⟩,
    ⟨hyear.1, hyear.2, hmonth.1, hmonth.2, ?_, Int.le_refl _⟩⟩
  · dsimp only
    omega
  · dsimp only
    omega

/-- The days of a month are as many as its length says. -/
theorem dayNumber_monthEnd (year month : Int) :
    (Date.mk year month (monthLength year month)).dayNumber =
      (Date.mk year month 1).dayNumber + monthLength year month - 1 := by
  simp only [dayNumber, ordinal]
  omega

/-- The dates of a month are those from its first to its last. -/
theorem inMonth_iff (h : date.Valid) {year month : Int} (hyear : 1 ≤ year ∧ year ≤ 9999)
    (hmonth : 1 ≤ month ∧ month ≤ 12) :
    date.year = year ∧ date.month = month ↔
      (Date.mk year month 1).dayNumber ≤ date.dayNumber ∧
        date.dayNumber ≤ (Date.mk year month (monthLength year month)).dayNumber := by
  obtain ⟨hfirst, hlast⟩ := valid_month_ends hyear hmonth
  have hge := h.day_ge
  have hle := h.day_le
  rw [← Int.not_lt, ← Int.not_lt, ← before_iff h hfirst, ← before_iff hlast h]
  unfold Before
  constructor
  · rintro ⟨rfl, rfl⟩
    dsimp only
    omega
  · dsimp only
    omega

/-! ## The next date -/

/-- The date after a date: the next day of the month, and after the last one the first of the
month that follows. -/
def next (date : Date) : Date :=
  if date.day = monthLength date.year date.month then
    if date.month = 12 then ⟨date.year + 1, 1, 1⟩ else ⟨date.year, date.month + 1, 1⟩
  else ⟨date.year, date.month, date.day + 1⟩

/-- The next date lies in the next year, in the next month or in the same one. -/
theorem next_cases (date : Date) :
    date.day = monthLength date.year date.month ∧ date.month = 12 ∧
        date.next = ⟨date.year + 1, 1, 1⟩ ∨
      date.day = monthLength date.year date.month ∧ date.month ≠ 12 ∧
        date.next = ⟨date.year, date.month + 1, 1⟩ ∨
      date.day ≠ monthLength date.year date.month ∧
        date.next = ⟨date.year, date.month, date.day + 1⟩ := by
  unfold next
  split
  · next hlast =>
    split
    · next hdecember => exact Or.inl ⟨hlast, hdecember, rfl⟩
    · next hdecember => exact Or.inr (Or.inl ⟨hlast, hdecember, rfl⟩)
  · next hlast => exact Or.inr (Or.inr ⟨hlast, rfl⟩)

/-- The month and the day of the next date are in range. -/
theorem next_fields (h : date.Valid) :
    1 ≤ date.next.month ∧ date.next.month ≤ 12 ∧ 1 ≤ date.next.day ∧
      date.next.day ≤ monthLength date.next.year date.next.month := by
  obtain ⟨-, -, hmonth, hmonth', hday, hday'⟩ := h
  have hlength := le_monthLength date.next.year date.next.month
  rcases next_cases date with ⟨-, -, hnext⟩ | ⟨-, hmonths, hnext⟩ | ⟨hlast, hnext⟩ <;>
    rw [hnext] at hlength ⊢ <;> dsimp only at hlength ⊢ <;> omega

/-- The next date has the next day number. -/
theorem dayNumber_next (h : date.Valid) : date.next.dayNumber = date.dayNumber + 1 := by
  obtain ⟨hmonth, hmonth', -⟩ := next_fields h
  have hlength := monthLength_eq date.year h.month_ge h.month_le
  rw [dayNumber_eq_firstDay hmonth hmonth', dayNumber_eq_firstDay h.month_ge h.month_le]
  -- The first of the month that follows is the day after the last of the month.
  have hfollows : ∀ {year month : Int},
      monthIndex year month = monthIndex date.year date.month + 1 →
      date.day = monthLength date.year date.month →
        firstDay (monthIndex year month) + 1 - 1 =
          firstDay (monthIndex date.year date.month) + date.day - 1 + 1 := by
    intro year month hindex hlast
    rw [hindex, hlast]
    omega
  rcases next_cases date with ⟨hlast, hdecember, hnext⟩ | ⟨hlast, -, hnext⟩ | ⟨-, hnext⟩
  · rw [hnext]
    refine hfollows ?_ hlast
    simp only [monthIndex]
    omega
  · rw [hnext]
    refine hfollows ?_ hlast
    simp only [monthIndex]
    omega
  · rw [hnext]
    dsimp only
    omega

/-- The date of the next day number is the next date, also at the end of the calendar. -/
theorem ofDayNumber_succ (h : date.Valid) : ofDayNumber (date.dayNumber + 1) = date.next := by
  obtain ⟨hmonth, hmonth', hday, hday'⟩ := next_fields h
  rw [← dayNumber_next h, ofDayNumber, dayNumber, Int.sub_add_cancel]
  exact ofOrdinal_ordinal hmonth hmonth' hday hday'

/-! ## The checked conversions -/

/-- The days that have a date are those of the calendar. -/
theorem valid_ofDayNumber_iff (day : Int) :
    (ofDayNumber day).Valid ↔
      (Date.mk 1 1 1).dayNumber ≤ day ∧ day ≤ (Date.mk 9999 12 31).dayNumber := by
  have hfirst : (Date.mk 1 1 1).dayNumber = 1 - epochOrdinal := by decide
  have hlast : (Date.mk 9999 12 31).dayNumber = lastOrdinal - epochOrdinal := by decide
  rw [ofDayNumber, valid_ofOrdinal_iff, hfirst, hlast]
  omega

/-- The days between two dates that exist are days of dates that exist. -/
theorem valid_ofDayNumber_of_between (h : date.Valid) (h' : later.Valid)
    (hafter : date.dayNumber ≤ day) (hbefore : day ≤ later.dayNumber) :
    (ofDayNumber day).Valid := by
  have hbegin := (ordinal_bounds h).1
  have hend := (ordinal_bounds h').2
  unfold dayNumber at hafter hbefore
  rw [ofDayNumber, valid_ofOrdinal_iff]
  omega

theorem category_of_toDayNumber (h : date.toDayNumber = .error failure) :
    failure.category = .value := by
  rw [toDayNumber, check] at h
  by_cases hword : (!(fitsWord date.year && fitsWord date.month && fitsWord date.day)) = true
  · rw [if_pos hword] at h
    cases h
    rfl
  · rw [if_neg hword] at h
    by_cases hyear : date.year < 1 ∨ 9999 < date.year
    · rw [if_pos hyear] at h
      cases h
      rfl
    rw [if_neg hyear] at h
    by_cases hmonth : date.month < 1 ∨ 12 < date.month
    · rw [if_pos hmonth] at h
      cases h
      rfl
    rw [if_neg hmonth] at h
    by_cases hday : date.day < 1 ∨ monthLength date.year date.month < date.day
    · rw [if_pos hday] at h
      cases h
      rfl
    · rw [if_neg hday] at h
      contradiction

theorem category_of_fromDayNumber (h : fromDayNumber day = .error failure) :
    failure.category = .value := by
  rw [fromDayNumber] at h
  split at h
  · contradiction
  · cases h
    rfl

/-- The numbers from 0001-01-01 to 9999-12-31 have a date, and no others. -/
theorem exists_fromDayNumber_iff (day : Int) :
    (∃ date, fromDayNumber day = .ok date) ↔ -719162 ≤ day ∧ day ≤ 2932896 := by
  have hfirst : (Date.mk 1 1 1).dayNumber = -719162 := by decide
  have hlast : (Date.mk 9999 12 31).dayNumber = 2932896 := by decide
  rw [← hfirst, ← hlast, ← valid_ofDayNumber_iff]
  constructor
  · rintro ⟨date, h⟩
    obtain ⟨hvalid, rfl⟩ := (fromDayNumber_eq_ok_iff _ _).1 h
    rw [ofDayNumber_dayNumber hvalid]
    exact hvalid
  · intro hvalid
    exact ⟨_, (fromDayNumber_eq_ok_iff _ _).2 ⟨hvalid, dayNumber_ofDayNumber day⟩⟩

/-- The dates with a number are those in the ranges of the calendar. -/
theorem exists_toDayNumber_iff (date : Date) :
    (∃ day, date.toDayNumber = .ok day) ↔
      (1 ≤ date.year ∧ date.year ≤ 9999) ∧ (1 ≤ date.month ∧ date.month ≤ 12) ∧
        1 ≤ date.day ∧ date.day ≤ monthLength date.year date.month := by
  simp only [toDayNumber_eq_ok_iff]
  constructor
  · rintro ⟨-, h, -⟩
    exact ⟨⟨h.year_ge, h.year_le⟩, ⟨h.month_ge, h.month_le⟩, h.day_ge, h.day_le⟩
  · rintro ⟨hyear, hmonth, hday⟩
    exact ⟨_, ⟨hyear.1, hyear.2, hmonth.1, hmonth.2, hday.1, hday.2⟩, rfl⟩

/-- The two conversions undo each other. -/
theorem toDayNumber_eq_ok_iff_fromDayNumber (date : Date) (day : Int) :
    date.toDayNumber = .ok day ↔ fromDayNumber day = .ok date := by
  rw [toDayNumber_eq_ok_iff, fromDayNumber_eq_ok_iff, eq_comm (a := day)]

/-- Before the end of the calendar, the next number has the next date. -/
theorem fromDayNumber_succ (h : fromDayNumber day = .ok date) (hlast : day < 2932896) :
    fromDayNumber (day + 1) = .ok date.next := by
  have hrange := (exists_fromDayNumber_iff day).1 ⟨date, h⟩
  obtain ⟨later, hlater⟩ := (exists_fromDayNumber_iff (day + 1)).2 ⟨by omega, by omega⟩
  obtain ⟨hvalid, rfl⟩ := (fromDayNumber_eq_ok_iff _ _).1 h
  obtain ⟨hvalid', hday⟩ := (fromDayNumber_eq_ok_iff _ _).1 hlater
  rw [hlater, ← ofDayNumber_succ hvalid, ← hday, ofDayNumber_dayNumber hvalid']

/-- The conversions between dates and day numbers are exact.  Day numbers reach from 0001-01-01 to
9999-12-31, and 1970-01-01 is 0; dates are those in the ranges of the calendar, with months as long
as the table of their lengths says.  Everything else is refused as a malformed value.  Each
conversion undoes the other, they keep the order of dates, and the next number has the next date. -/
theorem conversions_exact :
    (∀ day, (∃ date, fromDayNumber day = .ok date) ↔ -719162 ≤ day ∧ day ≤ 2932896) ∧
      (∀ day failure, fromDayNumber day = .error failure → failure.category = .value) ∧
      (∀ date : Date, (∃ day, date.toDayNumber = .ok day) ↔
        (1 ≤ date.year ∧ date.year ≤ 9999) ∧ (1 ≤ date.month ∧ date.month ≤ 12) ∧
          1 ≤ date.day ∧ date.day ≤ monthLength date.year date.month) ∧
      (∀ (date : Date) failure, date.toDayNumber = .error failure → failure.category = .value) ∧
      (∀ (date : Date) day, date.toDayNumber = .ok day ↔ fromDayNumber day = .ok date) ∧
      (∀ (date later : Date) day day', date.toDayNumber = .ok day → later.toDayNumber = .ok day' →
        (date.Before later ↔ day < day')) ∧
      (∀ day date, fromDayNumber day = .ok date → day < 2932896 →
        fromDayNumber (day + 1) = .ok date.next) ∧
      toDayNumber ⟨1, 1, 1⟩ = .ok (-719162) ∧ toDayNumber ⟨1970, 1, 1⟩ = .ok 0 ∧
        toDayNumber ⟨9999, 12, 31⟩ = .ok 2932896 := by
  refine ⟨exists_fromDayNumber_iff, fun _ _ => category_of_fromDayNumber, exists_toDayNumber_iff,
    fun _ _ => category_of_toDayNumber, toDayNumber_eq_ok_iff_fromDayNumber, ?order,
    fun _ _ => fromDayNumber_succ, rfl, rfl, rfl⟩
  case order =>
    intro date later day day' h h'
    obtain ⟨hvalid, rfl⟩ := (toDayNumber_eq_ok_iff _ _).1 h
    obtain ⟨hvalid', rfl⟩ := (toDayNumber_eq_ok_iff _ _).1 h'
    exact before_iff hvalid hvalid'

-- The turn of a century without a leap day, and of one with it.
example : (Date.mk 2100 2 28).next = ⟨2100, 3, 1⟩ ∧ (Date.mk 2000 2 28).next = ⟨2000, 2, 29⟩ := by
  decide

end CivilTime.Date
