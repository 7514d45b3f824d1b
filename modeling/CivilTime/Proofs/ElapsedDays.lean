import CivilTime.Proofs.WholeDays
import Mathlib

/-!
# The whole days between different clocks

Two instants that are not read on one clock are a number of seconds apart, and their difference
counts the days in it.  The microseconds are left out, so that it can count a day that is not
complete.

* `FractionShort` says when: the instants are whole days apart by their seconds, and the later one
  has fewer microseconds.  `wholeDays_of_fractionShort` and `wholeDays_of_not_fractionShort` are the
  two cases.
* `exists_acrossZones_eq` takes a difference apart, and `days_eq_div` says that its days are the
  days that have passed, if it has no years and months.
* `totalDays_elapsed` is the result.
-/

namespace CivilTime

/-- The days of the normal difference are all the days between two readings, if it has no years and
no months. -/
theorem Reading.days_eq_div {r s : Reading} (hr : r.Valid) (hs : s.Valid)
    (h : r.microTotal ≤ s.microTotal)
    (hyears : ((r.difference s).normalize s.year s.month).years = 0)
    (hmonths : ((r.difference s).normalize s.year s.month).months = 0) :
    ((r.difference s).normalize s.year s.month).days =
      (s.microTotal - r.microTotal) / 86400000000 := by
  have htotal := microTotal_eq_plus_difference hr hs h
  have htime := (r.difference s).timeMicros_normalize_bounds s.year s.month
  rw [hyears, hmonths, Int.mul_zero, Int.add_zero, Int.add_zero, Int.sub_self] at htotal
  omega

namespace Instant

variable {a b one two : Instant} {i : Interval} {notes : List Note} {exchanged inverted : Bool}

/-- The microseconds that pass between two instants. -/
def elapsedMicros (a b : Instant) : Int :=
  (a.microEpoch - b.microEpoch).natAbs

/-- By their seconds the instants are whole days apart, the second one later, and it lacks
microseconds to the last day. -/
def LacksFraction (one two : Instant) : Prop :=
  one.epoch < two.epoch ∧ 86400 ∣ two.epoch - one.epoch ∧ two.microsecond < one.microsecond

/-- Between two instants, the last day is not complete by less than a second. -/
def FractionShort (a b : Instant) : Prop :=
  LacksFraction a b ∨ LacksFraction b a

/-! ## Days by seconds -/

theorem wholeDays_of_not_oneClock (hclock : ¬OneClock a b) :
    wholeDays a b = (a.epoch - b.epoch).natAbs / 86400 := by
  rw [wholeDays, if_neg (fun h => hclock (sameClock_iff.1 h))]

/-- A day that is not complete is counted. -/
theorem wholeDays_of_fractionShort (ha : a.Consistent) (hb : b.Consistent)
    (hclock : ¬OneClock a b) (h : FractionShort a b) :
    wholeDays a b = elapsedMicros a b / 86400000000 + 1 := by
  have hamicro : 0 ≤ a.microsecond ∧ a.microsecond < 1000000 := ha.valid.microsecond
  have hbmicro : 0 ≤ b.microsecond ∧ b.microsecond < 1000000 := hb.valid.microsecond
  rw [wholeDays_of_not_oneClock hclock]
  unfold elapsedMicros microEpoch
  rcases h with ⟨hlater, hdays, hless⟩ | ⟨hlater, hdays, hless⟩ <;> omega

/-- In all other cases the microseconds do not matter. -/
theorem wholeDays_of_not_fractionShort (ha : a.Consistent) (hb : b.Consistent)
    (hclock : ¬OneClock a b) (h : ¬FractionShort a b) :
    wholeDays a b = elapsedMicros a b / 86400000000 := by
  have hamicro : 0 ≤ a.microsecond ∧ a.microsecond < 1000000 := ha.valid.microsecond
  have hbmicro : 0 ≤ b.microsecond ∧ b.microsecond < 1000000 := hb.valid.microsecond
  rw [wholeDays_of_not_oneClock hclock]
  unfold FractionShort LacksFraction at h
  unfold elapsedMicros microEpoch
  omega

/-! ## Days of the amounts -/

/-- The zone on whose clock an instant stands still is there only if the instant has a clock. -/
theorem hasClock_of_clockZone {zone : Zone} (h : one.clockZone = .ok zone) : one.HasClock := by
  intro data hnamed
  rw [clockZone, hnamed] at h
  obtain ⟨clock, hoffset, -⟩ := bind_eq_ok.1 h
  rw [ClockOffset.ofSeconds] at hoffset
  split at hoffset
  · next hless =>
    rw [offset, hnamed]
    exact hless
  · contradiction

/-- A difference across zones is that of the reading of the first instant and the reading of the
second on the clock of the first. -/
theorem exists_acrossZones_eq (hone : one.Consistent) (htwo : two.Consistent)
    (horder : a.inOrder b = (one, two, exchanged)) (h : acrossZones a b = .ok i) :
    ∃ r : Reading, r.Valid ∧ r.microTotal = two.microEpoch + one.offset * 1000000 ∧
      i.amounts = (one.reading.difference r).normalize r.year r.month := by
  rw [acrossZones, horder] at h
  obtain ⟨zone, hzone, h⟩ := bind_eq_ok.1 h
  obtain ⟨u, hu, h⟩ := bind_eq_ok.1 h
  obtain rfl := pure_eq_ok.1 h
  obtain ⟨huconsistent, huzone, huepoch, humicro⟩ :=
    (atEpoch_eq_ok_iff htwo.valid.microsecond).1 hu
  obtain ⟨zone', hzone', hstands⟩ := clockZone_standsAt hone (hasClock_of_clockZone hzone)
  obtain rfl := Except.ok.inj (hzone'.symm.trans hzone)
  refine ⟨u.reading, huconsistent.valid, ?_, rfl⟩
  rw [huconsistent.microTotal_eq, offset_of_standsAt hstands huconsistent huzone, microEpoch,
    microEpoch, huepoch, humicro]
  rfl

theorem sameNamed_of_not_oneClock (hclock : ¬OneClock a b) : a.zone.sameNamed b.zone = false := by
  rw [← Bool.not_eq_true]
  intro hsame
  obtain ⟨data, hazone, hbzone⟩ := exists_named_of_sameNamed hsame
  exact hclock (.named data hazone hbzone)

/-- Without years and months, the days of a difference are the days that have passed. -/
theorem days_eq_div (ha : a.Consistent) (hb : b.Consistent) (hclock : ¬OneClock a b)
    (h : a.diff b = .ok (i, notes)) (hyears : i.amounts.years = 0)
    (hmonths : i.amounts.months = 0) : i.amounts.days = elapsedMicros a b / 86400000000 := by
  have hzones := sameNamed_of_not_oneClock hclock
  rw [diff_eq hzones] at h
  obtain ⟨j, hj, h⟩ := bind_eq_ok.1 h
  obtain ⟨rfl, -⟩ := Prod.mk.inj (pure_eq_ok.1 h)
  obtain ⟨one, two, exchanged, horder, -, hle⟩ := exists_inOrder_of_zones ha hb hzones
  obtain ⟨hone, htwo, helapsed⟩ :
      one.Consistent ∧ two.Consistent ∧ elapsedMicros a b = two.microEpoch - one.microEpoch := by
    unfold elapsedMicros
    rcases inOrder_cases horder with ⟨rfl, rfl⟩ | ⟨rfl, rfl⟩
    · exact ⟨ha, hb, by omega⟩
    · exact ⟨hb, ha, by omega⟩
  obtain ⟨r, hr, htotal, hamounts⟩ := exists_acrossZones_eq hone htwo horder hj
  have honetotal := hone.microTotal_eq
  rw [hamounts] at hyears hmonths ⊢
  rw [Reading.days_eq_div hone.valid hr (by omega) hyears hmonths, helapsed, htotal, honetotal]
  congr 1
  omega

/-- Two instants that are not read on one clock, and their difference.  It counts the days that have
passed between them, and its days are as many if it has no years and months; but if the last day is
not complete by less than a second, it counts that day too. -/
theorem totalDays_elapsed (ha : a.Consistent) (hb : b.Consistent) (hclock : ¬OneClock a b)
    (hdiff : a.diff b = .ok (i, notes)) :
    (i.totalDays = some (elapsedMicros a b / 86400000000) ↔ ¬FractionShort a b) ∧
      (FractionShort a b → i.totalDays = some (elapsedMicros a b / 86400000000 + 1)) ∧
      (i.amounts.years = 0 → i.amounts.months = 0 →
        (i.totalDays = some i.amounts.days ↔ ¬FractionShort a b)) := by
  have hback : ¬OneClock b a := fun h => hclock h.symm
  have htotal : i.totalDays = some (wholeDays a b) := by
    rcases totalDays_cases hdiff with h | h
    · exact h
    · rw [h, wholeDays_of_not_oneClock hclock, wholeDays_of_not_oneClock hback,
        ← Int.natAbs_neg, Int.neg_sub]
  have hexact : i.totalDays = some (elapsedMicros a b / 86400000000) ↔ ¬FractionShort a b := by
    rw [htotal]
    by_cases hshort : FractionShort a b
    · rw [wholeDays_of_fractionShort ha hb hclock hshort]
      simp [hshort]
    · rw [wholeDays_of_not_fractionShort ha hb hclock hshort]
      simp [hshort]
  refine ⟨hexact, fun hshort => ?_, fun hyears hmonths => ?_⟩
  · rw [htotal, wholeDays_of_fractionShort ha hb hclock hshort]
  · rw [days_eq_div ha hb hclock hdiff hyears hmonths]
    exact hexact

/-- From an hour before the end of January to the beginning of March, 28 days and an hour pass. -/
theorem totalDays_januaryEnd :
    ∃ i notes, januaryEnd.diff marchBegin = .ok (i, notes) ∧
      i.totalDays = some (elapsedMicros januaryEnd marchBegin / 86400000000) ∧
      i.totalDays = some i.amounts.days := by
  have hjanuary : januaryEnd.Consistent := ⟨(Reading.check_eq_ok_iff _).1 rfl, rfl, rfl⟩
  have hmarch : marchBegin.Consistent := ⟨(Reading.check_eq_ok_iff _).1 rfl, rfl, rfl⟩
  have hclock : ¬OneClock januaryEnd marchBegin := fun h => absurd (sameClock_iff.2 h) (by decide)
  have hshort : ¬FractionShort januaryEnd marchBegin := by
    rintro (⟨-, -, hless⟩ | ⟨-, -, hless⟩) <;> exact absurd hless (by decide)
  have hdiff : januaryEnd.diff marchBegin =
      .ok (⟨⟨0, 0, 28, 1, 0, 0, 0⟩, false, some 28⟩, []) := by
    cbv
  obtain ⟨hexact, -, hfields⟩ := totalDays_elapsed hjanuary hmarch hclock hdiff
  exact ⟨_, _, hdiff, hexact.2 hshort, (hfields rfl rfl).2 hshort⟩

/-- Half a second into 1970, in UTC. -/
def newYearHalfSecond : Instant where
  reading := ⟨1970, 1, 1, 0, 0, 0, 500000⟩
  epoch := 0
  kept := 0
  isDaylight := false
  zone := januaryEnd.zone

/-- The beginning of the second day of 1970 in UTC, on a clock two hours ahead. -/
def secondDayAhead : Instant where
  reading := ⟨1970, 1, 2, 2, 0, 0, 0⟩
  epoch := 86400
  kept := 7200
  isDaylight := false
  zone := marchBegin.zone

/-- Half a second less than a day passes, and a day is counted beside an interval of hours. -/
theorem not_totalDays_halfSecond :
    newYearHalfSecond.Consistent ∧ secondDayAhead.Consistent ∧
      ¬OneClock newYearHalfSecond secondDayAhead ∧
      newYearHalfSecond.diff secondDayAhead =
        .ok (⟨⟨0, 0, 0, 23, 59, 59, 500000⟩, false, some 1⟩, []) ∧
      elapsedMicros newYearHalfSecond secondDayAhead / 86400000000 = 0 :=
  ⟨⟨(Reading.check_eq_ok_iff _).1 rfl, rfl, rfl⟩, ⟨(Reading.check_eq_ok_iff _).1 rfl, rfl, rfl⟩,
    fun h => absurd (sameClock_iff.2 h) (by decide), by cbv, by decide⟩

end Instant

end CivilTime
