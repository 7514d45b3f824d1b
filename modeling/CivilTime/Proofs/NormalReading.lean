import CivilTime.Proofs.ReadingSeconds

/-!
# Normal readings keep their total

Carrying brings a reading into its ranges and leaves what it stands for as it
is.  Days carry across months by their number, so the total of a reading
counts months first: `monthIndex` numbers the months of all years, and
`firstDay` is the day number with which a month begins.

* `firstDay_succ` says that months follow each other without a break.
* `Reading.microTotal` is what seven numbers stand for, in range or not.
* `Reading.normalize_eq_ok_iff` is the result: normal form exists exactly where
  the year of the carried month lies in the calendar and so does the day, and
  it is the valid reading with the same total.
-/

namespace CivilTime

/-! ## Months in a row -/

/-- The number of a month, counted from January of the year 0.  Months out of
range count on into the years around. -/
def monthIndex (year month : Int) : Int :=
  12 * year + month - 1

/-- The day number of the first day of a month, by the number of the month. -/
def firstDay (index : Int) : Int :=
  (Date.mk (index / 12) (index % 12 + 1) 1).dayNumber

/-- The length of a month, by the number of the month. -/
def lengthOf (index : Int) : Int :=
  monthLength (index / 12) (index % 12 + 1)

theorem monthIndex_parts (year : Int) {month : Int} (hfirst : 1 ≤ month) (hlast : month ≤ 12) :
    monthIndex year month / 12 = year ∧ monthIndex year month % 12 + 1 = month := by
  unfold monthIndex
  omega

theorem monthIndex_of_parts (index : Int) : monthIndex (index / 12) (index % 12 + 1) = index := by
  unfold monthIndex
  omega

theorem monthIndex_add (year month years months : Int) :
    monthIndex (year + years) (month + months) = monthIndex year month + 12 * years + months := by
  unfold monthIndex
  omega

/-- A date lies as many days after the first of its month as its day says. -/
theorem dayNumber_eq_firstDay {date : Date} (hfirst : 1 ≤ date.month) (hlast : date.month ≤ 12) :
    date.dayNumber = firstDay (monthIndex date.year date.month) + date.day - 1 := by
  obtain ⟨hyear, hmonth⟩ := monthIndex_parts date.year hfirst hlast
  simp only [firstDay, hyear, hmonth, Date.dayNumber, Date.ordinal]
  omega

/-- Months follow each other without a break. -/
theorem firstDay_succ (index : Int) : firstDay (index + 1) = firstDay index + lengthOf index := by
  simp only [firstDay, lengthOf, Date.dayNumber, Date.ordinal]
  by_cases hdecember : index % 12 = 11
  · have hmonth : (index + 1) % 12 + 1 = 1 := by omega
    have hyear : (index + 1) / 12 = index / 12 + 1 := by omega
    have hwhole := daysBeforeMonth_december (index / 12)
    have hfirst : daysBeforeMonth (index / 12 + 1) 1 = 0 := by simp [daysBeforeMonth]
    rw [hmonth, hyear, daysBeforeYear_succ, hfirst, hdecember, show (11 : Int) + 1 = 12 from rfl]
    omega
  · have hmonth : (index + 1) % 12 + 1 = index % 12 + 1 + 1 := by omega
    have hyear : (index + 1) / 12 = index / 12 := by omega
    have hnext := @daysBeforeMonth_succ (index / 12) (index % 12 + 1) (by omega) (by omega)
    rw [hmonth, hyear, hnext]
    omega

/-! ## Carrying -/

theorem carryInto_sixty (value carry : Int) :
    carryInto 0 60 value carry = (value % 60, carry + value / 60) := by
  simp [carryInto_of_lt]

theorem carryInto_day (value carry : Int) :
    carryInto 0 24 value carry = (value % 24, carry + value / 24) := by
  simp [carryInto_of_lt]

/-- Months carry into years by the number of the month. -/
theorem carryInto_month (month year : Int) :
    carryInto 1 13 month year = (monthIndex year month % 12 + 1, monthIndex year month / 12) := by
  rw [carryInto_of_lt _ _ (by omega)]
  unfold monthIndex
  congr 1 <;> omega

namespace Reading

/-- The days that a reading stands for: those before its month, and the days of
the month before its own. -/
def dayTotal (r : Reading) : Int :=
  firstDay (monthIndex r.year r.month) + r.day - 1

/-- The microseconds since 1970-01-01 00:00:00 that a reading stands for, in
range or not. -/
def microTotal (r : Reading) : Int :=
  (r.dayTotal * 86400 + r.daySeconds) * 1000000 + r.microsecond

theorem dayTotal_of_valid {r : Reading} (h : r.Valid) : r.dayTotal = r.date.dayNumber :=
  (dayNumber_eq_firstDay h.date.month_ge h.date.month_le).symm

theorem microTotal_of_valid {r : Reading} (h : r.Valid) :
    r.microTotal = r.localSeconds * 1000000 + r.microsecond := by
  rw [microTotal, dayTotal_of_valid h, localSeconds]

/-- The day of a valid reading is the day of its total. -/
theorem dayNumber_eq_div {r : Reading} (h : r.Valid) :
    r.date.dayNumber = r.microTotal / 86400000000 := by
  have hseconds := daySeconds_bounds h
  have hmicro := h.microsecond
  rw [microTotal, dayTotal_of_valid h]
  omega

/-- The month of a valid reading lies in the calendar. -/
theorem monthYear_bounds {r : Reading} (h : r.Valid) :
    1 ≤ monthIndex r.year r.month / 12 ∧ monthIndex r.year r.month / 12 ≤ 9999 := by
  have hfirst : 1 ≤ r.month := h.date.month_ge
  have hlast : r.month ≤ 12 := h.date.month_le
  rw [(monthIndex_parts r.year hfirst hlast).1]
  exact ⟨h.date.year_ge, h.date.year_le⟩

/-- Valid readings are told apart by their total. -/
theorem eq_of_microTotal {r s : Reading} (hr : r.Valid) (hs : s.Valid)
    (h : r.microTotal = s.microTotal) : r = s := by
  have hrmicro := hr.microsecond
  have hsmicro := hs.microsecond
  rw [microTotal_of_valid hr, microTotal_of_valid hs] at h
  exact eq_of_localSeconds hr hs (by omega) (by omega)

/-! ## The normal form -/

/-- The first of a month, by the number of the month, exists where its year
lies in the calendar. -/
theorem toDayNumber_first (index : Int) (first : Int) :
    (Date.mk (index / 12) (index % 12 + 1) 1).toDayNumber = .ok first ↔
      (1 ≤ index / 12 ∧ index / 12 ≤ 9999) ∧ first = firstDay index := by
  rw [Date.toDayNumber_eq_ok_iff, firstDay]
  have hlength := le_monthLength (index / 12) (index % 12 + 1)
  constructor
  · rintro ⟨hvalid, rfl⟩
    exact ⟨⟨hvalid.year_ge, hvalid.year_le⟩, rfl⟩
  · rintro ⟨⟨hge, hle⟩, rfl⟩
    refine ⟨⟨hge, hle, ?_, ?_, ?_, ?_⟩, rfl⟩ <;> dsimp only <;> omega

/-- The day of the normal form is the day of the total. -/
theorem microTotal_div_day (r : Reading) :
    r.microTotal / 86400000000 =
      firstDay (monthIndex r.year r.month) +
        (r.day + (r.hour + (r.minute + (r.second + r.microsecond / 1000000) / 60) / 60) / 24) -
        1 := by
  simp only [microTotal, dayTotal, daySeconds, clockSeconds]
  omega

/-- A normal form is valid, and keeps the total. -/
theorem valid_of_normalize {r s : Reading} (h : r.normalize = .ok s) :
    (1 ≤ monthIndex r.year r.month / 12 ∧ monthIndex r.year r.month / 12 ≤ 9999) ∧
      s.Valid ∧ s.microTotal = r.microTotal := by
  simp only [normalize, carryMicroseconds_eq, carryInto_sixty, carryInto_day, carryInto_month,
    bind_eq_ok, toDayNumber_first, Date.fromDayNumber_eq_ok_iff] at h
  obtain ⟨first, ⟨hyear, rfl⟩, date, ⟨hvalid, hdate⟩, hs⟩ := h
  obtain rfl := pure_eq_ok.1 hs
  have hday := dayNumber_eq_firstDay hvalid.month_ge hvalid.month_le
  refine ⟨hyear, ⟨hvalid, ?_, ?_, ?_, ?_⟩, ?_⟩
  · dsimp only
    omega
  · dsimp only
    omega
  · dsimp only
    omega
  · dsimp only
    omega
  · simp only [microTotal, dayTotal, daySeconds, clockSeconds]
    omega

/-- There is a normal form where the year of the carried month and the day of
the total lie in the calendar. -/
theorem exists_normalize {r : Reading}
    (hyear : 1 ≤ monthIndex r.year r.month / 12 ∧ monthIndex r.year r.month / 12 ≤ 9999)
    {date : Date} (hvalid : date.Valid) (hday : date.dayNumber = r.microTotal / 86400000000) :
    ∃ s, r.normalize = .ok s := by
  rw [microTotal_div_day] at hday
  simp only [normalize, carryMicroseconds_eq, carryInto_sixty, carryInto_day, carryInto_month,
    bind_eq_ok, toDayNumber_first, Date.fromDayNumber_eq_ok_iff]
  exact ⟨_, _, ⟨hyear, rfl⟩, date, ⟨hvalid, hday⟩, rfl⟩

/-- A reading has a normal form exactly where the year of its carried month and
its day lie in the calendar; the normal form is the valid reading with the same
total. -/
theorem normalize_eq_ok_iff {r s : Reading} :
    r.normalize = .ok s ↔
      (1 ≤ monthIndex r.year r.month / 12 ∧ monthIndex r.year r.month / 12 ≤ 9999) ∧
        s.Valid ∧ s.microTotal = r.microTotal := by
  constructor
  · exact valid_of_normalize
  · rintro ⟨hyear, hvalid, htotal⟩
    have hday : s.date.dayNumber = r.microTotal / 86400000000 := by
      rw [← htotal, dayNumber_eq_div hvalid]
    obtain ⟨s', hs'⟩ := exists_normalize hyear hvalid.date hday
    obtain ⟨_, hvalid', htotal'⟩ := valid_of_normalize hs'
    rw [hs', eq_of_microTotal hvalid' hvalid (htotal'.trans htotal.symm)]

/-- A valid reading is its own normal form. -/
theorem normalize_of_valid {r : Reading} (h : r.Valid) : r.normalize = .ok r :=
  normalize_eq_ok_iff.2 ⟨monthYear_bounds h, h, rfl⟩

end Reading

end CivilTime
