import CivilTime.Proofs.DifferenceWithinZone
import CivilTime.Proofs.ReadingDifference

/-!
# Readings in reverse

Where the clock of a named zone goes back, two readings may come in the reverse
order of their exact times (`InReverse`).  Their amounts are then counted in
reverse: the date and the hour are those between the readings, and the change of the
clock takes the place of the minutes and seconds.

* `InReverse.restApart_lt` says that the change is the larger of the two.
* `reverseMicros` is what amounts in reverse stand for, and
  `InReverse.reverseMicros_eq` compares it with the time that passes: dates and hours
  count double.
* `InReverse.inRange`, `InReverse.noMonths_iff` and `InReverse.total_eq` are about
  their normal form.
-/

namespace CivilTime

namespace Instant

variable {data : ZoneData} {one two : Instant}

/-- The seconds that two readings are apart besides their dates and hours. -/
def restApart (one two : Instant) : Int :=
  (two.reading.minute - one.reading.minute) * 60 + (two.reading.second - one.reading.second)

/-- The microseconds that amounts in reverse stand for: the days between the dates,
and the change of the clock less the rest. -/
def reverseMicros (one two : Instant) : Int :=
  (two.reading.dayTotal - one.reading.dayTotal) * 86400000000 +
    (two.kept - one.kept - restApart one two) * 1000000 + (two.microsecond - one.microsecond)

/-- Two instants of a zone with readings in order, of which the second is the
earlier one. -/
structure InReverse (data : ZoneData) (one two : Instant) : Prop where
  first : ConsistentIn data one
  second : ConsistentIn data two
  clock : one.reading.microTotal ≤ two.reading.microTotal
  earlier : two.epoch < one.epoch

/-- Instants in the reverse order of their readings are at different seconds: at one
second the zone has one offset. -/
theorem inReverse_of_microEpoch (hone : ConsistentIn data one) (htwo : ConsistentIn data two)
    (hclock : one.reading.microTotal ≤ two.reading.microTotal)
    (hexact : two.microEpoch < one.microEpoch) : InReverse data one two := by
  refine ⟨hone, htwo, hclock, ?_⟩
  have honemicro := hone.micro_bounds
  have htwomicro := htwo.micro_bounds
  rw [hone.microTotal_eq, htwo.microTotal_eq] at hclock
  have hne : two.epoch ≠ one.epoch := by
    intro hsecond
    have hkept := (htwo.kept_eq hone hsecond).1
    omega
  unfold microEpoch at hexact
  omega

namespace InReverse

theorem change_pos (h : InReverse data one two) : 0 < two.kept - one.kept := by
  have honemicro := h.first.micro_bounds
  have htwomicro := h.second.micro_bounds
  have hclock := h.clock
  have hearlier := h.earlier
  rw [h.first.microTotal_eq, h.second.microTotal_eq] at hclock
  unfold microEpoch at hclock
  omega

/-- The clock goes back by more than it shows. -/
theorem clock_lt_change (h : InReverse data one two) :
    two.reading.microTotal - one.reading.microTotal <
      (two.kept - one.kept) * 1000000 + (two.microsecond - one.microsecond) := by
  have hearlier := h.earlier
  rw [h.first.microTotal_eq, h.second.microTotal_eq]
  unfold microEpoch
  omega

/-- The readings are on one date or go forward in dates, and by more than the hours
go back. -/
theorem dates_and_hours_nonneg (h : InReverse data one two) :
    one.reading.dayTotal ≤ two.reading.dayTotal ∧
      0 ≤ (two.reading.dayTotal - one.reading.dayTotal) * 24 +
        (two.reading.hour - one.reading.hour) := by
  obtain ⟨-, honehour, honeminute, honesecond, honemicro⟩ := h.first.valid
  obtain ⟨-, htwohour, htwominute, htwosecond, htwomicro⟩ := h.second.valid
  have hclock := h.clock
  simp only [Reading.microTotal, Reading.daySeconds, clockSeconds] at hclock
  omega

/-- The clock goes back by more than the rest. -/
theorem restApart_lt (h : InReverse data one two) : restApart one two < two.kept - one.kept := by
  have hless := h.clock_lt_change
  have hhours := h.dates_and_hours_nonneg.2
  simp only [Reading.microTotal, Reading.daySeconds, clockSeconds, microsecond] at hless
  unfold restApart
  omega

/-- Amounts in reverse are the time that passes, and the dates and the hours
twice. -/
theorem reverseMicros_eq (h : InReverse data one two) :
    reverseMicros one two = one.microEpoch - two.microEpoch +
      ((two.reading.dayTotal - one.reading.dayTotal) * 48 +
        (two.reading.hour - one.reading.hour)) * 3600000000 +
      2 * (two.microsecond - one.microsecond) := by
  have honetotal := h.first.microTotal_eq
  have htwototal := h.second.microTotal_eq
  simp only [Reading.microTotal, Reading.daySeconds, clockSeconds] at honetotal htwototal
  unfold reverseMicros restApart microsecond
  omega

theorem reverseMicros_nonneg (h : InReverse data one two) : 0 ≤ reverseMicros one two := by
  have hdays := h.dates_and_hours_nonneg.1
  have hrest := h.restApart_lt
  have honemicro := h.first.micro_bounds
  have htwomicro := h.second.micro_bounds
  unfold reverseMicros
  omega

/-! ## The normal form -/

theorem clockAmounts_eq (h : InReverse data one two) :
    clockAmounts one two =
      (repeatedAmounts (one.reading.difference two.reading) (two.kept - one.kept)).normalize
        two.reading.year two.reading.month := by
  rw [clockAmounts, if_pos h.earlier]

/-- The whole days of amounts in reverse, in months and days. -/
theorem carriedDays_eq (h : InReverse data one two) :
    (repeatedAmounts (one.reading.difference two.reading) (two.kept - one.kept)).carriedDays +
        firstDay (monthIndex two.reading.year two.reading.month) -
        firstDay (monthIndex one.reading.year one.reading.month) =
      reverseMicros one two / 86400000000 := by
  have hrest := h.restApart_lt
  simp only [Amounts.carriedDays, repeatedAmounts, Reading.difference, reverseMicros,
    Reading.dayTotal, restApart, microsecond] at hrest ⊢
  omega

/-- Amounts in reverse count from the month of the first reading, and days on. -/
theorem firstDay_le (h : InReverse data one two) :
    firstDay (monthIndex one.reading.year one.reading.month) ≤
      (repeatedAmounts (one.reading.difference two.reading) (two.kept - one.kept)).carriedDays +
        firstDay (monthIndex two.reading.year two.reading.month) := by
  have hwhole := h.carriedDays_eq
  have hnonneg := h.reverseMicros_nonneg
  omega

theorem inRange (h : InReverse data one two) : (clockAmounts one two).InRange := by
  rw [h.clockAmounts_eq]
  exact Amounts.normalize_inRange h.second.valid.date.month_ge h.second.valid.date.month_le
    (Reading.difference_months one.reading two.reading)
    (Reading.monthIndex_le h.first.valid h.second.valid h.clock) h.firstDay_le

/-- The months and the days of amounts in reverse: some months are borrowed, and no
more than the days need. -/
theorem clockAmounts_parts (h : InReverse data one two) :
    ∃ k, 0 ≤ k ∧
      12 * (clockAmounts one two).years + (clockAmounts one two).months =
        monthIndex two.reading.year two.reading.month - k -
          monthIndex one.reading.year one.reading.month ∧
      (clockAmounts one two).days = reverseMicros one two / 86400000000 +
        firstDay (monthIndex one.reading.year one.reading.month) -
        firstDay (monthIndex two.reading.year two.reading.month - k) ∧
      (0 < k → reverseMicros one two / 86400000000 +
        firstDay (monthIndex one.reading.year one.reading.month) -
        firstDay (monthIndex two.reading.year two.reading.month - k + 1) < 0) := by
  have hwhole := h.carriedDays_eq
  have hmonths : 12 * (repeatedAmounts (one.reading.difference two.reading)
        (two.kept - one.kept)).years + (repeatedAmounts (one.reading.difference two.reading)
        (two.kept - one.kept)).months =
      monthIndex two.reading.year two.reading.month -
        monthIndex one.reading.year one.reading.month :=
    Reading.difference_months one.reading two.reading
  obtain ⟨k, hk, -, hindex, hdays, hleast⟩ := Amounts.normalize_parts
    h.second.valid.date.month_ge h.second.valid.date.month_le hmonths
    (Reading.monthIndex_le h.first.valid h.second.valid h.clock) h.firstDay_le
  rw [h.clockAmounts_eq]
  simp only [Reading.date] at hindex hdays hleast
  refine ⟨k, hk, hindex, by omega, ?_⟩
  intro hpos
  have hshort := hleast hpos
  omega

/-- Amounts in reverse have no months if the readings are of one month, or if the
days do not fill the month of the first. -/
theorem noMonths_iff (h : InReverse data one two) :
    (clockAmounts one two).years = 0 ∧ (clockAmounts one two).months = 0 ↔
      monthIndex one.reading.year one.reading.month =
          monthIndex two.reading.year two.reading.month ∨
        reverseMicros one two <
          lengthOf (monthIndex one.reading.year one.reading.month) * 86400000000 := by
  obtain ⟨k, hk, hindex, hleft, hleast⟩ := h.clockAmounts_parts
  obtain ⟨hyears, hrange, hnonneg, -⟩ := h.inRange
  have hnext := firstDay_succ (monthIndex one.reading.year one.reading.month)
  generalize monthIndex one.reading.year one.reading.month = first at *
  generalize monthIndex two.reading.year two.reading.month = last at *
  constructor
  · intro hnone
    obtain rfl : k = last - first := by omega
    rcases Int.lt_or_eq_of_le hk with hpos | hsame
    · -- The last of the months between the readings is borrowed for want of days.
      have hshort := hleast hpos
      rw [show last - (last - first) + 1 = first + 1 by omega] at hshort
      omega
    · omega
  · intro hmonths
    have hall : last - k ≤ first := by
      rcases hmonths with rfl | hshort
      · omega
      · refine Int.not_lt.1 fun hlater => ?_
        have hmono := firstDay_mono (show first + 1 ≤ last - k by omega)
        omega
    omega

/-- Without months, amounts in reverse have their days and their time of day
left. -/
theorem total_eq (h : InReverse data one two)
    (hnone : (clockAmounts one two).years = 0 ∧ (clockAmounts one two).months = 0) :
    (clockAmounts one two).days * 86400000000 + (clockAmounts one two).timeMicros =
      reverseMicros one two := by
  obtain ⟨k, -, hindex, htotal⟩ := Amounts.normalize_total
    (repeatedAmounts (one.reading.difference two.reading) (two.kept - one.kept))
    two.reading.year two.reading.month h.second.valid.date.month_ge h.second.valid.date.month_le
  have hrest := h.restApart_lt
  rw [← h.clockAmounts_eq] at hindex htotal
  -- No months are left, so as many were borrowed as lie between the readings.
  have hmonth : monthIndex two.reading.year two.reading.month - k =
      monthIndex one.reading.year one.reading.month := by
    simp only [repeatedAmounts, Reading.difference] at hindex
    unfold monthIndex
    omega
  rw [hmonth] at htotal
  simp only [Amounts.timeMicros, clockSeconds, repeatedAmounts, Reading.difference] at htotal ⊢
  unfold restApart at hrest
  unfold reverseMicros restApart Reading.dayTotal microsecond
  omega

end InReverse

end Instant

end CivilTime
