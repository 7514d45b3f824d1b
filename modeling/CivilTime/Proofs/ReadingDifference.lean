import CivilTime.Proofs.NormalReading

/-!
# The normal difference of two readings

The difference of two readings is brought into ranges by carrying, and by
borrowing whole months for negative days.  Borrowing counts the lengths of the
months back from the later reading; adding counts days on from a month that
lies as many months earlier.  The two cancel, because months follow each other
without a break.

* `borrowMonths_spec` says how many months are borrowed, and for how many
  days.
* `Amounts.normalize_eq` and `Amounts.timeMicros_normalize` take carrying apart.
* `Amounts.normalize_parts` is the reason why years are not negative: amounts that
  count from some month to a later day borrow no more months than lie in between.
* `Reading.normalize_plus_difference` is the result, and
  `Reading.difference_inRange` gives the ranges.
* `Reading.normalize_difference_of_lt_day` is the case of readings less than a
  day apart.
-/

namespace CivilTime

/-! ## Months do not overlap -/

theorem firstDay_lt_succ (index : Int) : firstDay index < firstDay (index + 1) := by
  have hlength := le_monthLength (index / 12) (index % 12 + 1)
  rw [firstDay_succ, lengthOf]
  omega

theorem firstDay_mono {index later : Int} (h : index ≤ later) :
    firstDay index ≤ firstDay later := by
  obtain ⟨n, rfl⟩ := Int.le.dest h
  clear h
  induction n with
  | zero => simp
  | succ n ih =>
    have hnext := firstDay_lt_succ (index + n)
    rw [Int.natCast_add, Int.natCast_one, ← Int.add_assoc]
    omega

/-! ## Borrowing -/

theorem monthIndex_previousMonth (year : Int) {month : Int} (hfirst : 1 ≤ month)
    (hlast : month ≤ 12) :
    monthIndex (previousMonth year month).1 (previousMonth year month).2 =
        monthIndex year month - 1 ∧
      1 ≤ (previousMonth year month).2 ∧ (previousMonth year month).2 ≤ 12 := by
  unfold previousMonth monthIndex
  split
  · dsimp only
    omega
  · dsimp only
    omega

/-- The length of a month is what its successor begins later. -/
theorem monthLength_eq (year : Int) {month : Int} (hfirst : 1 ≤ month) (hlast : month ≤ 12) :
    monthLength year month =
      firstDay (monthIndex year month + 1) - firstDay (monthIndex year month) := by
  obtain ⟨hyear, hmonth⟩ := monthIndex_parts year hfirst hlast
  rw [firstDay_succ, lengthOf, hyear, hmonth]
  omega

/-- Borrowing takes the days of some months before the given one, and of no
more months than it needs. -/
theorem borrowMonths_spec (year month days months : Int) (hfirst : 1 ≤ month)
    (hlast : month ≤ 12) :
    ∃ k, 0 ≤ k ∧ (borrowMonths year month days months).2 = months - k ∧
      (borrowMonths year month days months).1 =
        days + firstDay (monthIndex year month) - firstDay (monthIndex year month - k) ∧
      (0 < k →
        days + firstDay (monthIndex year month) - firstDay (monthIndex year month - k + 1) <
          0) := by
  fun_induction borrowMonths year month days months with
  | case1 year month days months hneg before ih =>
    obtain ⟨hindex, hfirst', hlast'⟩ := monthIndex_previousMonth year hfirst hlast
    obtain ⟨k, hk, hmonths, hdays, hleast⟩ := ih hfirst' hlast'
    have hlength : monthLength before.1 before.2 =
        firstDay (monthIndex year month) - firstDay (monthIndex year month - 1) := by
      rw [monthLength_eq before.1 hfirst' hlast', hindex, Int.sub_add_cancel]
    have hback : monthIndex year month - 1 - k = monthIndex year month - (k + 1) := by omega
    rw [hindex, hback] at hdays hleast
    refine ⟨k + 1, by omega, by omega, by omega, fun _ => ?_⟩
    rcases Int.lt_or_eq_of_le hk with hpos | rfl
    · have hshort := hleast hpos
      omega
    · rw [Int.zero_add, Int.sub_add_cancel]
      omega
  | case2 year month days months henough =>
    refine ⟨0, by omega, by simp, ?_, fun hpos => absurd hpos (Int.lt_irrefl 0)⟩
    rw [Int.sub_zero]
    omega

/-! ## Carrying amounts -/

theorem carryInto_twelve (value carry : Int) :
    carryInto 0 12 value carry = (value % 12, carry + value / 12) := by
  simp [carryInto_of_lt]

namespace Amounts

/-- The days of amounts after the smaller units are carried. -/
def carriedDays (a : Amounts) : Int :=
  a.days + (a.hours + (a.minutes + (a.seconds + a.microseconds / 1000000) / 60) / 60) / 24

/-- The microseconds that the units below the day stand for. -/
def timeMicros (a : Amounts) : Int :=
  clockSeconds a.hours a.minutes a.seconds * 1000000 + a.microseconds

/-- The same count, unit by unit from the hours down. -/
theorem timeMicros_horner (a : Amounts) :
    a.timeMicros = ((a.hours * 60 + a.minutes) * 60 + a.seconds) * 1000000 + a.microseconds := by
  unfold timeMicros clockSeconds
  omega

/-- Carrying, and borrowing in between. -/
theorem normalize_eq (a : Amounts) (year month : Int) :
    a.normalize year month =
      { years := a.years + a.months / 12 +
          (borrowMonths year month a.carriedDays (a.months % 12)).2 / 12
        months := (borrowMonths year month a.carriedDays (a.months % 12)).2 % 12
        days := (borrowMonths year month a.carriedDays (a.months % 12)).1
        hours := (a.hours + (a.minutes + (a.seconds + a.microseconds / 1000000) / 60) / 60) % 24
        minutes := (a.minutes + (a.seconds + a.microseconds / 1000000) / 60) % 60
        seconds := (a.seconds + a.microseconds / 1000000) % 60
        microseconds := a.microseconds % 1000000 } := by
  simp only [normalize, carryMicroseconds_eq, carryInto_sixty, carryInto_day, carryInto_twelve,
    carriedDays]

/-- Carrying moves whole days out of the smaller units. -/
theorem timeMicros_normalize (a : Amounts) (year month : Int) :
    a.timeMicros =
      (a.carriedDays - a.days) * 86400000000 + (a.normalize year month).timeMicros := by
  simp only [normalize_eq, timeMicros, carriedDays, clockSeconds]
  omega

/-- The units below the day stand for less than a day after carrying. -/
theorem timeMicros_normalize_bounds (a : Amounts) (year month : Int) :
    0 ≤ (a.normalize year month).timeMicros ∧
      (a.normalize year month).timeMicros < 86400000000 := by
  simp only [normalize_eq, timeMicros, clockSeconds]
  omega

/-- Borrowing takes months back, and their days take the place of days and time
of day. -/
theorem normalize_total (a : Amounts) (year month : Int) (hfirst : 1 ≤ month)
    (hlast : month ≤ 12) :
    ∃ k, 0 ≤ k ∧
      12 * (a.normalize year month).years + (a.normalize year month).months =
        12 * a.years + a.months - k ∧
      (a.normalize year month).days * 86400000000 + (a.normalize year month).timeMicros =
        (a.days + firstDay (monthIndex year month) - firstDay (monthIndex year month - k)) *
          86400000000 + a.timeMicros := by
  obtain ⟨k, hk, hmonths, hdays, -⟩ :=
    borrowMonths_spec year month a.carriedDays (a.months % 12) hfirst hlast
  have htime := a.timeMicros_normalize year month
  have hcarried : (a.normalize year month).days =
      a.carriedDays + firstDay (monthIndex year month) - firstDay (monthIndex year month - k) := by
    rw [normalize_eq]
    exact hdays
  refine ⟨k, hk, ?_, by omega⟩
  rw [normalize_eq, hmonths]
  dsimp only
  omega

/-- Nothing is borrowed for days that are not negative. -/
theorem normalize_of_nonneg {a : Amounts} (h : 0 ≤ a.carriedDays) (year month : Int) :
    a.normalize year month =
      { years := a.years + a.months / 12 + a.months % 12 / 12
        months := a.months % 12 % 12
        days := a.carriedDays
        hours := (a.hours + (a.minutes + (a.seconds + a.microseconds / 1000000) / 60) / 60) % 24
        minutes := (a.minutes + (a.seconds + a.microseconds / 1000000) / 60) % 60
        seconds := (a.seconds + a.microseconds / 1000000) % 60
        microseconds := a.microseconds % 1000000 } := by
  rw [normalize_eq, borrowMonths, if_neg (by omega)]

/-- Amounts of hours, minutes and seconds in their ranges are normal. -/
theorem normalize_clock {hours minutes seconds : Int} (hhours : 0 ≤ hours ∧ hours < 24)
    (hminutes : 0 ≤ minutes ∧ minutes < 60) (hseconds : 0 ≤ seconds ∧ seconds < 60)
    (year month : Int) :
    Amounts.normalize { hours, minutes, seconds } year month = { hours, minutes, seconds } := by
  have hcarried : carriedDays { hours, minutes, seconds } = 0 := by
    simp only [carriedDays]
    omega
  rw [normalize_of_nonneg (by omega), hcarried, mk.injEq]
  dsimp only
  refine ⟨rfl, rfl, rfl, ?_⟩
  omega

/-- Every unit but the years and the days is less than one of the next larger,
and none but the years is negative. -/
structure Carried (a : Amounts) : Prop where
  months : 0 ≤ a.months ∧ a.months < 12
  days : 0 ≤ a.days
  hours : 0 ≤ a.hours ∧ a.hours < 24
  minutes : 0 ≤ a.minutes ∧ a.minutes < 60
  seconds : 0 ≤ a.seconds ∧ a.seconds < 60
  microseconds : 0 ≤ a.microseconds ∧ a.microseconds < 1000000

/-- Carrying and borrowing leave only the years out of range. -/
theorem normalize_carried (a : Amounts) (year month : Int) : (a.normalize year month).Carried := by
  have hborrowed := borrowMonths_nonneg year month a.carriedDays (a.months % 12)
  rw [normalize_eq]
  refine ⟨?_, hborrowed, ?_, ?_, ?_, ?_⟩
  · dsimp only
    omega
  · dsimp only
    omega
  · dsimp only
    omega
  · dsimp only
    omega
  · dsimp only
    omega

/-- Every unit but the years is less than one of the next larger, and none is
negative. -/
structure InRange (a : Amounts) : Prop where
  years : 0 ≤ a.years
  months : 0 ≤ a.months ∧ a.months < 12
  days : 0 ≤ a.days
  hours : 0 ≤ a.hours ∧ a.hours < 24
  minutes : 0 ≤ a.minutes ∧ a.minutes < 60
  seconds : 0 ≤ a.seconds ∧ a.seconds < 60
  microseconds : 0 ≤ a.microseconds ∧ a.microseconds < 1000000

section FromMonth

variable {a : Amounts} {year month first : Int}

/-- Amounts that count from some month to a given one, and days from the first of
that month on: no more months are borrowed than lie between the two. -/
theorem normalize_parts (hfirst : 1 ≤ month) (hlast : month ≤ 12)
    (hindex : 12 * a.years + a.months = monthIndex year month - first)
    (hle : first ≤ monthIndex year month)
    (hdays : firstDay first ≤ a.carriedDays + firstDay (monthIndex year month)) :
    ∃ k, 0 ≤ k ∧ k ≤ monthIndex year month - first ∧
      12 * (a.normalize year month).years + (a.normalize year month).months =
        monthIndex year month - k - first ∧
      (a.normalize year month).days =
        a.carriedDays + firstDay (monthIndex year month) - firstDay (monthIndex year month - k) ∧
      (0 < k → a.carriedDays + firstDay (monthIndex year month) -
        firstDay (monthIndex year month - k + 1) < 0) := by
  obtain ⟨k, hk, hmonths, hborrowed, hleast⟩ :=
    borrowMonths_spec year month a.carriedDays (a.months % 12) hfirst hlast
  refine ⟨k, hk, Int.not_lt.1 fun hlt => ?_, ?_, ?_, hleast⟩
  · -- The last month borrowed would begin before the first one.
    have hbegin := firstDay_mono (show monthIndex year month - k + 1 ≤ first by omega)
    have hshort := hleast (by omega)
    omega
  · rw [normalize_eq, hmonths]
    dsimp only
    omega
  · rw [normalize_eq]
    exact hborrowed

/-- Such amounts have every unit in its range after carrying. -/
theorem normalize_inRange (hfirst : 1 ≤ month) (hlast : month ≤ 12)
    (hindex : 12 * a.years + a.months = monthIndex year month - first)
    (hle : first ≤ monthIndex year month)
    (hdays : firstDay first ≤ a.carriedDays + firstDay (monthIndex year month)) :
    (a.normalize year month).InRange := by
  obtain ⟨k, -, hk, hmonths, -⟩ := normalize_parts hfirst hlast hindex hle hdays
  obtain ⟨hmonth, hday, hhour, hminute, hsecond, hmicro⟩ := a.normalize_carried year month
  exact ⟨by omega, hmonth, hday, hhour, hminute, hsecond, hmicro⟩

end FromMonth

end Amounts

namespace Reading

variable {r s : Reading}

/-! ## The difference of two readings -/

/-- The whole days from one reading to another, in months and days. -/
theorem carriedDays_difference (r s : Reading) :
    (r.difference s).carriedDays + firstDay (monthIndex s.year s.month) -
        firstDay (monthIndex r.year r.month) =
      (s.microTotal - r.microTotal) / 86400000000 := by
  simp only [Amounts.carriedDays, difference, microTotal, dayTotal, daySeconds, clockSeconds]
  omega

/-- A later reading is of the same month or a later one. -/
theorem monthIndex_le (hr : r.Valid) (hs : s.Valid) (h : r.microTotal ≤ s.microTotal) :
    monthIndex r.year r.month ≤ monthIndex s.year s.month := by
  refine Int.not_lt.1 fun hlt => ?_
  have hmonths := firstDay_mono (show monthIndex s.year s.month + 1 ≤ monthIndex r.year r.month
    by omega)
  have hlength := monthLength_eq s.year hs.date.month_ge hs.date.month_le
  have hday := hs.date.day_le
  have hfirst := hr.date.day_ge
  have hrday := daySeconds_bounds hr
  have hsday := daySeconds_bounds hs
  have hrmicro := hr.microsecond
  have hsmicro := hs.microsecond
  simp only [date] at hday hfirst hlength
  simp only [microTotal, dayTotal] at h
  omega

/-- The difference of two readings counts from the month of the earlier one. -/
theorem difference_months (r s : Reading) :
    12 * (r.difference s).years + (r.difference s).months =
      monthIndex s.year s.month - monthIndex r.year r.month := by
  simp only [difference, monthIndex]
  omega

/-- A later reading is no days back from the month of the earlier one. -/
theorem firstDay_le_difference (h : r.microTotal ≤ s.microTotal) :
    firstDay (monthIndex r.year r.month) ≤
      (r.difference s).carriedDays + firstDay (monthIndex s.year s.month) := by
  have hwhole := carriedDays_difference r s
  omega

/-- The normal difference: some months back from the later reading, the
earlier one is no more than a number of days and a time of day away. -/
theorem normalize_difference_parts (hr : r.Valid) (hs : s.Valid)
    (h : r.microTotal ≤ s.microTotal) :
    ∃ k, 0 ≤ k ∧ k ≤ monthIndex s.year s.month - monthIndex r.year r.month ∧
      12 * ((r.difference s).normalize s.year s.month).years +
          ((r.difference s).normalize s.year s.month).months =
        monthIndex s.year s.month - k - monthIndex r.year r.month ∧
      ((r.difference s).normalize s.year s.month).days =
        (r.difference s).carriedDays + firstDay (monthIndex s.year s.month) -
          firstDay (monthIndex s.year s.month - k) := by
  obtain ⟨k, hk, hle, hmonths, hdays, -⟩ := Amounts.normalize_parts hs.date.month_ge
    hs.date.month_le (difference_months r s) (monthIndex_le hr hs h) (firstDay_le_difference h)
  exact ⟨k, hk, hle, hmonths, hdays⟩

/-- The normal difference has every unit in its range. -/
theorem difference_inRange (hr : r.Valid) (hs : s.Valid) (h : r.microTotal ≤ s.microTotal) :
    ((r.difference s).normalize s.year s.month).InRange :=
  Amounts.normalize_inRange hs.date.month_ge hs.date.month_le (difference_months r s)
    (monthIndex_le hr hs h) (firstDay_le_difference h)

/-- What amounts add to the total of a reading: the days up to the first of
the new month, the days and the time of day. -/
theorem microTotal_plus (r : Reading) (a : Amounts) :
    (r.plus a).microTotal =
      (firstDay (monthIndex r.year r.month + 12 * a.years + a.months) -
        firstDay (monthIndex r.year r.month) + a.days) * 86400000000 + a.timeMicros +
        r.microTotal := by
  simp only [microTotal, dayTotal, plus, monthIndex_add, Amounts.timeMicros, daySeconds,
    clockSeconds]
  omega

/-- Adding the normal difference to the earlier reading gives the later
one. -/
theorem normalize_plus_difference (hr : r.Valid) (hs : s.Valid)
    (h : r.microTotal ≤ s.microTotal) :
    (r.plus ((r.difference s).normalize s.year s.month)).normalize = .ok s := by
  obtain ⟨k, hnonneg, hk, hmonths, hdays⟩ := normalize_difference_parts hr hs h
  have htime := (r.difference s).timeMicros_normalize s.year s.month
  have htotal := microTotal_plus r ((r.difference s).normalize s.year s.month)
  generalize (r.difference s).normalize s.year s.month = a at *
  have hindex : monthIndex r.year r.month + 12 * a.years + a.months =
      monthIndex s.year s.month - k := by omega
  rw [hindex] at htotal
  refine normalize_eq_ok_iff.2 ⟨?_, hs, ?_⟩
  · -- The month of the sum lies between the months of the two readings.
    have hyear := hr.date.year_ge
    have hmonth := hr.date.month_ge
    have hyear' := hs.date.year_le
    have hmonth' := hs.date.month_le
    simp only [date] at hyear hmonth hyear' hmonth'
    simp only [plus, monthIndex] at *
    omega
  · -- Both count the days from the first of that month.
    have hday : (r.difference s).days = s.day - r.day := rfl
    have hclock : (r.difference s).timeMicros =
        (s.daySeconds - r.daySeconds) * 1000000 + (s.microsecond - r.microsecond) := by
      simp only [Amounts.timeMicros, difference, daySeconds, clockSeconds]
      omega
    rw [htotal]
    simp only [microTotal, dayTotal]
    omega

/-- The normal difference is zero only between equal readings. -/
theorem normalize_difference_eq_zero_iff (hr : r.Valid) (hs : s.Valid)
    (h : r.microTotal ≤ s.microTotal) :
    (r.difference s).normalize s.year s.month = {} ↔ r = s := by
  constructor
  · intro hzero
    have hplus := normalize_plus_difference hr hs h
    have hsame : r.plus {} = r := by simp [plus]
    rw [hzero, hsame] at hplus
    obtain ⟨_, _, htotal⟩ := valid_of_normalize hplus
    exact (eq_of_microTotal hs hr htotal).symm
  · rintro rfl
    have hzero : r.difference r = {} := by simp [difference]
    rw [hzero, Amounts.normalize_eq, borrowMonths]
    rfl

/-- The normal difference stands for what the readings are apart: the days up
to the first of the month that it reaches, its days and its time of day. -/
theorem microTotal_eq_plus_difference (hr : r.Valid) (hs : s.Valid)
    (h : r.microTotal ≤ s.microTotal) :
    s.microTotal = (firstDay (monthIndex r.year r.month +
          12 * ((r.difference s).normalize s.year s.month).years +
          ((r.difference s).normalize s.year s.month).months) -
        firstDay (monthIndex r.year r.month) +
        ((r.difference s).normalize s.year s.month).days) * 86400000000 +
      ((r.difference s).normalize s.year s.month).timeMicros + r.microTotal := by
  rw [← microTotal_plus]
  exact (valid_of_normalize (normalize_plus_difference hr hs h)).2.2

/-- Readings less than a day apart differ in units below the day only. -/
theorem normalize_difference_of_lt_day (hr : r.Valid) (hs : s.Valid)
    (h : r.microTotal ≤ s.microTotal) (hday : s.microTotal - r.microTotal < 86400000000) :
    ((r.difference s).normalize s.year s.month).years = 0 ∧
      ((r.difference s).normalize s.year s.month).months = 0 ∧
      ((r.difference s).normalize s.year s.month).days = 0 ∧
      ((r.difference s).normalize s.year s.month).timeMicros = s.microTotal - r.microTotal := by
  have htotal := microTotal_eq_plus_difference hr hs h
  obtain ⟨hyears, hmonths, hdays, -⟩ := difference_inRange hr hs h
  have htime := (r.difference s).timeMicros_normalize_bounds s.year s.month
  generalize (r.difference s).normalize s.year s.month = a at *
  have hmono := firstDay_mono (show monthIndex r.year r.month ≤
    monthIndex r.year r.month + 12 * a.years + a.months by omega)
  have hnone : 12 * a.years + a.months = 0 := by
    -- One month more would already be a day.
    refine Classical.byContradiction fun hsome => ?_
    have hnext := firstDay_mono (show monthIndex r.year r.month + 1 ≤
      monthIndex r.year r.month + 12 * a.years + a.months by omega)
    have hlonger := firstDay_lt_succ (monthIndex r.year r.month)
    omega
  rw [show monthIndex r.year r.month + 12 * a.years + a.months = monthIndex r.year r.month by
    omega] at htotal
  omega

end Reading

end CivilTime
