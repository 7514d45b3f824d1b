import CivilTime.Proofs.DatesInOrder
import CivilTime.Proofs.ElapsedTime
import CivilTime.Proofs.ReadingSums

/-!
# Carrying is exact

Readings with any seven numbers are brought into their ranges by carrying.  A reading stands for a
total of microseconds, counted from the first day of the month that its year and month mean
(`Reading.carriedFirst`), and the normal form is the reading of this total.

* `Reading.normalize_eq_ofLocalSeconds` is the reason: where that month lies in the calendar,
  nothing but the total matters.
* `Reading.exists_normalize_iff` says which readings have a normal form, and
  `Reading.category_of_normalize` what the others are refused as.
* `Reading.normalize_plus_of_normalize` is about sums: a normal form taken in between changes
  nothing, as long as no months are added to it.
* `Reading.normalize_exact` puts that together.
-/

namespace CivilTime

namespace Reading

variable {r s : Reading} {a b : Amounts} {failure : Failure}

/-! ## The month of a reading -/

/-- The first day of the month that the year and the month of a reading mean.  Months out of
range carry into the years. -/
def carriedFirst (r : Reading) : Date :=
  ⟨r.year + (r.month - 1) / 12, (r.month - 1) % 12 + 1, 1⟩

theorem carriedFirst_eq (r : Reading) :
    r.carriedFirst =
      ⟨monthIndex r.year r.month / 12, monthIndex r.year r.month % 12 + 1, 1⟩ := by
  have hyear : r.year + (r.month - 1) / 12 = monthIndex r.year r.month / 12 := by
    unfold monthIndex
    omega
  have hmonth : (r.month - 1) % 12 + 1 = monthIndex r.year r.month % 12 + 1 := by
    unfold monthIndex
    omega
  rw [carriedFirst, hyear, hmonth]

/-- A reading stands for the days from the first of its month on, and for its time of day. -/
theorem microTotal_eq_carriedFirst (r : Reading) :
    r.microTotal =
      (r.carriedFirst.dayNumber + (r.day - 1)) * 86400000000 + r.hour * 3600000000 +
        r.minute * 60000000 + r.second * 1000000 + r.microsecond := by
  rw [carriedFirst_eq]
  simp only [microTotal, dayTotal, firstDay, daySeconds, clockSeconds]
  omega

/-! ## The normal form -/

/-- Carrying seconds, minutes and hours leaves the time of day of the seconds that they stand
for. -/
theorem carried_clock (days hour minute second : Int) :
    hourOf (((days * 24 + hour) * 3600 + minute * 60 + second) % 86400) =
        (hour + (minute + second / 60) / 60) % 24 ∧
      minuteOf (((days * 24 + hour) * 3600 + minute * 60 + second) % 86400) =
        (minute + second / 60) % 60 ∧
      secondOf (((days * 24 + hour) * 3600 + minute * 60 + second) % 86400) = second % 60 := by
  unfold hourOf minuteOf secondOf
  omega

/-- Where the month lies in the calendar, the normal form is the reading of the total. -/
theorem normalize_eq_ofLocalSeconds
    (hyear : 1 ≤ r.carriedFirst.year ∧ r.carriedFirst.year ≤ 9999) :
    r.normalize = ofLocalSeconds (r.microTotal / 1000000) (r.microTotal % 1000000) := by
  rw [carriedFirst_eq] at hyear
  have hfirst := (toDayNumber_first (monthIndex r.year r.month) _).2 ⟨hyear, rfl⟩
  have hseconds : r.microTotal / 1000000 = (r.dayTotal * 24 + r.hour) * 3600 + r.minute * 60 +
      (r.second + r.microsecond / 1000000) := by
    simp only [microTotal, daySeconds, clockSeconds]
    omega
  have hmicro : r.microTotal % 1000000 = r.microsecond % 1000000 := by
    unfold microTotal
    omega
  have hday : r.microTotal / 86400000000 = r.microTotal / 1000000 / 86400 := by omega
  rw [microTotal_div_day] at hday
  obtain ⟨hhour, hminute, hsecond⟩ :=
    carried_clock r.dayTotal r.hour r.minute (r.second + r.microsecond / 1000000)
  simp only [normalize, carryMicroseconds_eq, carryInto_sixty, carryInto_day, carryInto_month,
    hfirst, ofLocalSeconds, ← hhour, ← hminute, ← hsecond, ← hmicro, ← hseconds]
  rw [← hday]
  rfl

/-- A reading has a normal form where the year of its month and the day of its total lie in the
calendar. -/
theorem exists_normalize_iff :
    (∃ s, r.normalize = .ok s) ↔
      (1 ≤ r.carriedFirst.year ∧ r.carriedFirst.year ≤ 9999) ∧
        (Date.mk 1 1 1).dayNumber ≤ r.microTotal / 86400000000 ∧
        r.microTotal / 86400000000 ≤ (Date.mk 9999 12 31).dayNumber := by
  rw [← Date.valid_ofDayNumber_iff, carriedFirst_eq]
  constructor
  · rintro ⟨s, hs⟩
    obtain ⟨hyear, hvalid, htotal⟩ := valid_of_normalize hs
    refine ⟨hyear, ?_⟩
    rw [← htotal, ← dayNumber_eq_div hvalid, Date.ofDayNumber_dayNumber hvalid.date]
    exact hvalid.date
  · rintro ⟨hyear, hdate⟩
    exact exists_normalize hyear hdate (Date.dayNumber_ofDayNumber _)

theorem category_of_ofLocalSeconds {seconds microsecond : Int}
    (h : ofLocalSeconds seconds microsecond = .error failure) : failure.category = .value := by
  rcases bind_eq_error.1 h with h | ⟨date, -, h⟩
  · exact Date.category_of_fromDayNumber h
  · contradiction

theorem category_of_normalize (h : r.normalize = .error failure) : failure.category = .value := by
  simp only [normalize, carryMicroseconds_eq, carryInto_sixty, carryInto_day, carryInto_month] at h
  rcases bind_eq_error.1 h with h | ⟨first, -, h⟩
  · exact Date.category_of_toDayNumber h
  · rcases bind_eq_error.1 h with h | ⟨date, -, h⟩
    · exact Date.category_of_fromDayNumber h
    · contradiction

/-- A normal form is the only valid reading with the total. -/
theorem unique_of_normalize (h : r.normalize = .ok s) :
    s.Valid ∧ s.localSeconds * 1000000 + s.microsecond = r.microTotal ∧
      ∀ s', s'.Valid → s'.localSeconds * 1000000 + s'.microsecond = r.microTotal → s' = s := by
  obtain ⟨-, hs, htotal⟩ := valid_of_normalize h
  refine ⟨hs, (microTotal_of_valid hs).symm.trans htotal, fun s' hs' htotal' => ?_⟩
  rw [← microTotal_of_valid hs'] at htotal'
  exact eq_of_microTotal hs' hs (htotal'.trans htotal.symm)

/-! ## Sums -/

/-- Adding the sum of two amounts is adding one after the other. -/
theorem plus_sum (r : Reading) (a b : Amounts) : r.plus (a.sum b) = (r.plus a).plus b := by
  simp only [plus, Amounts.sum, Int.add_assoc]

/-- Amounts without months leave the month as it is. -/
theorem carriedFirst_plus (r : Reading) (hyears : b.years = 0) (hmonths : b.months = 0) :
    (r.plus b).carriedFirst = r.carriedFirst := by
  simp only [carriedFirst, plus, hyears, hmonths, Int.add_zero]

/-- Adding days and smaller units to a normal form is adding them before carrying. -/
theorem normalize_plus_of_normalize (h : r.normalize = .ok s) (hyears : b.years = 0)
    (hmonths : b.months = 0) : (s.plus b).normalize = (r.plus b).normalize := by
  obtain ⟨hyear, hs, htotal⟩ := valid_of_normalize h
  have hryear : 1 ≤ (r.plus b).carriedFirst.year ∧ (r.plus b).carriedFirst.year ≤ 9999 := by
    rw [carriedFirst_plus r hyears hmonths, carriedFirst_eq]
    exact hyear
  have hsyear : 1 ≤ (s.plus b).carriedFirst.year ∧ (s.plus b).carriedFirst.year ≤ 9999 := by
    rw [carriedFirst_plus s hyears hmonths, carriedFirst_eq]
    exact monthYear_bounds hs
  rw [normalize_eq_ofLocalSeconds hryear, normalize_eq_ofLocalSeconds hsyear,
    microTotal_plus_of_noMonths r hyears hmonths, microTotal_plus_of_noMonths s hyears hmonths,
    htotal]

/-- Carrying is exact.  A reading stands for a day of the month that its year and month mean, and
for a time of day.  It has a normal form where the year of that month and the day reached lie in the
calendar, and is refused as a malformed value elsewhere.  The normal form is the one valid reading
at the same total; a valid reading is its own.  Days and smaller units can be added before or after
carrying. -/
theorem normalize_exact (r : Reading) :
    r.microTotal =
        (r.carriedFirst.dayNumber + (r.day - 1)) * 86400000000 + r.hour * 3600000000 +
          r.minute * 60000000 + r.second * 1000000 + r.microsecond ∧
      ((∃ s, r.normalize = .ok s) ↔
        (1 ≤ r.carriedFirst.year ∧ r.carriedFirst.year ≤ 9999) ∧
          (Date.mk 1 1 1).dayNumber ≤ r.microTotal / 86400000000 ∧
          r.microTotal / 86400000000 ≤ (Date.mk 9999 12 31).dayNumber) ∧
      (∀ failure, r.normalize = .error failure → failure.category = .value) ∧
      (∀ s, r.normalize = .ok s →
        s.Valid ∧ s.localSeconds * 1000000 + s.microsecond = r.microTotal ∧
          ∀ s', s'.Valid → s'.localSeconds * 1000000 + s'.microsecond = r.microTotal → s' = s) ∧
      (r.Valid → r.normalize = .ok r) ∧
      (∀ (a b : Amounts) (s : Reading), b.years = 0 → b.months = 0 →
        (r.plus a).normalize = .ok s →
        (s.plus b).normalize = (r.plus (a.sum b)).normalize) := by
  refine ⟨microTotal_eq_carriedFirst r, exists_normalize_iff, fun _ h => category_of_normalize h,
    fun _ h => unique_of_normalize h, normalize_of_valid, ?_⟩
  intro a b s hyears hmonths h
  rw [plus_sum]
  exact normalize_plus_of_normalize h hyears hmonths

-- The thirty-first of February, and a microsecond less than 25 hours.
example : normalize ⟨2023, 2, 31, 25, 0, 0, -1⟩ = .ok ⟨2023, 3, 4, 0, 59, 59, 999999⟩ := rfl

end Reading

end CivilTime
