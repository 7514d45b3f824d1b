import CivilTime.Proofs.DifferenceWithinZone

/-!
# Differences at one offset

Between two instants of a named zone at the same offset, the clock may change and
change back, but the readings are as far apart as the exact times.  Adding the
difference to the earlier reading then gives the later one, except in one case: a
span that ends shortly before a transition has its last day counted as 24 hours,
and these replace the hours that the span has besides its days.

* `normalize_plus_lastDay_iff` says what replacing the hours does to a sum.
* `hours_eq_zero_iff` says when there are no hours to replace.
* `plus_diff_iff` is the result, by `EndsBefore`, and
  `not_plus_diff_fridayHalfPastTwelve` is a span that loses an hour.
-/

namespace CivilTime

namespace Reading

variable {r s : Reading}

/-- With the last day counted as 24 hours in place of the hours, the normal
difference still leads to the later reading only if it has no hours. -/
theorem normalize_plus_lastDay_iff (hr : r.Valid) (hs : s.Valid)
    (h : r.microTotal ≤ s.microTotal) :
    (r.plus { (r.difference s).normalize s.year s.month with
        days := ((r.difference s).normalize s.year s.month).days - 1, hours := 24 }).normalize =
        .ok s ↔
      ((r.difference s).normalize s.year s.month).hours = 0 := by
  obtain ⟨hyear, -, htotal⟩ := normalize_eq_ok_iff.1 (normalize_plus_difference hr hs h)
  generalize (r.difference s).normalize s.year s.month = a at *
  have hchange : (r.plus { a with days := a.days - 1, hours := 24 }).microTotal =
      (r.plus a).microTotal - a.hours * 3600000000 := by
    rw [microTotal_plus, microTotal_plus]
    simp only [Amounts.timeMicros, clockSeconds]
    omega
  rw [normalize_eq_ok_iff, hchange]
  constructor
  · rintro ⟨-, -, hsame⟩
    omega
  · intro hzero
    exact ⟨hyear, hs, by omega⟩

/-- The normal difference has no hours if the readings are less than an hour more
than whole days apart. -/
theorem hours_eq_zero_iff (hr : r.Valid) (hs : s.Valid) (h : r.microTotal ≤ s.microTotal) :
    ((r.difference s).normalize s.year s.month).hours = 0 ↔
      (s.microTotal - r.microTotal) % 86400000000 < 3600000000 := by
  have htotal := microTotal_eq_plus_difference hr hs h
  obtain ⟨-, -, -, hhours, hminutes, hseconds, hmicros⟩ := difference_inRange hr hs h
  generalize (r.difference s).normalize s.year s.month = a at *
  simp only [Amounts.timeMicros, clockSeconds] at htotal
  omega

end Reading

namespace Instant

variable {data : ZoneData} {a b one two : Instant}

/-- The sum of the earlier reading and a corrected difference, where the last day
may be counted as 24 hours. -/
theorem plus_correctedInterval_iff (ha : ConsistentIn data a) (hb : ConsistentIn data b)
    (horder : a.microEpoch ≤ b.microEpoch) (hkept : a.kept = b.kept)
    (period : Option OffsetPeriod) :
    (a.reading.plus
        (correctedInterval a b false (lastDayCorrection a b period)).1.amounts).normalize =
        .ok b.reading ↔
      (EndsBefore a b period → (b.microEpoch - a.microEpoch) % 86400000000 < 3600000000) := by
  have hamicro := ha.micro_bounds
  have hbmicro := hb.micro_bounds
  have hatotal := ha.microTotal_eq
  have hbtotal := hb.microTotal_eq
  have hforward : a.reading.microTotal ≤ b.reading.microTotal := by omega
  have hamounts : clockAmounts a b =
      (a.reading.difference b.reading).normalize b.reading.year b.reading.month :=
    clockAmounts_of_le (by unfold microEpoch at horder; omega)
  have hspan : b.reading.microTotal - a.reading.microTotal = b.microEpoch - a.microEpoch := by omega
  rcases lastDayCorrection_cases a b period with ⟨hends, seconds, hcorrection⟩ | ⟨hnot, hcorrection⟩
  · rw [correctedInterval, hcorrection, hamounts]
    dsimp only [Correction.apply]
    rw [Reading.normalize_plus_lastDay_iff ha.valid hb.valid hforward,
      Reading.hours_eq_zero_iff ha.valid hb.valid hforward, hspan]
    exact ⟨fun h _ => h, fun h => h hends⟩
  · rw [correctedInterval, hcorrection, hamounts]
    exact ⟨fun _ hends => absurd hends hnot,
      fun _ => Reading.normalize_plus_difference ha.valid hb.valid hforward⟩

/-- Two instants of a named zone at the same offset and daylight flag, in order.
Their difference, added to the reading of the first, gives that of the second,
exactly unless they are a day or more apart and either the zone has no answer for
the time at which it is asked, or the span ends just before a transition and is
an hour or more longer than whole days. -/
theorem plus_diff_iff (ha : a.Consistent) (hb : b.Consistent) (hazone : a.zone = .named data)
    (hbzone : b.zone = .named data) (horder : b.earlierThan a = false) (hkept : a.kept = b.kept)
    (hflag : a.isDaylight = b.isDaylight) :
    (∃ i notes, a.diff b = .ok (i, notes) ∧
        (a.reading.plus i.amounts).normalize = .ok b.reading) ↔
      (86400 ≤ b.epoch - a.epoch →
        ∃ period, data.periodAt (b.epoch - b.kept) = .ok period ∧
          (EndsBefore a b period →
            (b.microEpoch - a.microEpoch) % 86400000000 < 3600000000)) := by
  have ha : ConsistentIn data a := ⟨ha, hazone⟩
  have hb : ConsistentIn data b := ⟨hb, hbzone⟩
  have horder := (hb.earlierThan_eq_false_iff ha).1 horder
  have hbefore : b.reading.before a.reading = false := by
    rw [hb.before_eq_false_iff ha]
    omega
  rw [diff_eq_of_not_before ha hb hbefore, correction_of_sameFlag hflag]
  by_cases hlong : 86400 ≤ b.epoch - a.epoch
  · rw [if_pos hlong]
    cases hperiod : data.periodAt (b.epoch - b.kept) with
    | error failure =>
      constructor
      · rintro ⟨i, notes, hdiff, -⟩
        contradiction
      · intro h
        obtain ⟨period, hok, -⟩ := h hlong
        contradiction
    | ok period =>
      have hplus := plus_correctedInterval_iff ha hb horder hkept period
      constructor
      · rintro ⟨i, notes, hdiff, hsum⟩ -
        cases Except.ok.inj hdiff
        exact ⟨period, rfl, hplus.1 hsum⟩
      · intro h
        obtain ⟨period', hok, hends⟩ := h hlong
        cases hok
        exact ⟨_, _, rfl, hplus.2 hends⟩
  · rw [if_neg hlong]
    have hplus := plus_correctedInterval_iff ha hb horder hkept none
    have hnever : ¬ EndsBefore a b none := by
      rintro ⟨_, _, _, hperiod, -⟩
      contradiction
    constructor
    · intro _ h
      exact absurd h hlong
    · intro _
      exact ⟨_, _, rfl, hplus.2 fun hends => absurd hends hnever⟩

/-- Two days before the clock of the zone goes back. -/
def fridayHalfPastOne : Instant where
  reading := ⟨2023, 11, 3, 1, 30, 0, 0⟩
  epoch := 1698989400
  kept := -14400
  isDaylight := true
  zone := .named eastern

theorem consistent_fridayHalfPastOne : fridayHalfPastOne.Consistent :=
  ⟨(Reading.check_eq_ok_iff _).1 rfl, rfl, rfl⟩

/-- The last day is counted as 24 hours, and the span has no other hours. -/
theorem plus_diff_fridayHalfPastOne :
    ∃ i notes, fridayHalfPastOne.diff sundayHalfPastOne = .ok (i, notes) ∧
      (fridayHalfPastOne.reading.plus i.amounts).normalize = .ok sundayHalfPastOne.reading := by
  refine (plus_diff_iff consistent_fridayHalfPastOne consistent_sundayHalfPastOne rfl rfl
    (by decide) rfl rfl).2 fun _ => ⟨_, rfl, fun _ => ?_⟩
  decide

/-- An hour earlier on that day. -/
def fridayHalfPastTwelve : Instant where
  reading := ⟨2023, 11, 3, 0, 30, 0, 0⟩
  epoch := 1698985800
  kept := -14400
  isDaylight := true
  zone := .named eastern

/-- A span of two days and an hour is counted as one day and 24 hours, which is an
hour too short. -/
theorem not_plus_diff_fridayHalfPastTwelve :
    fridayHalfPastTwelve.Consistent ∧ sundayHalfPastOne.Consistent ∧
      sundayHalfPastOne.earlierThan fridayHalfPastTwelve = false ∧
      fridayHalfPastTwelve.kept = sundayHalfPastOne.kept ∧
      fridayHalfPastTwelve.isDaylight = sundayHalfPastOne.isDaylight ∧
      ∃ i notes, fridayHalfPastTwelve.diff sundayHalfPastOne = .ok (i, notes) ∧
        (fridayHalfPastTwelve.reading.plus i.amounts).normalize = .ok ⟨2023, 11, 5, 0, 30, 0, 0⟩ ∧
        sundayHalfPastOne.reading ≠ ⟨2023, 11, 5, 0, 30, 0, 0⟩ := by
  have hamounts : clockAmounts fridayHalfPastTwelve sundayHalfPastOne = { days := 2, hours := 1 } :=
    Amounts.normalize_of_nonneg (by decide) _ _
  have hdiff : fridayHalfPastTwelve.diff sundayHalfPastOne =
      .ok (correctedInterval fridayHalfPastTwelve sundayHalfPastOne false (.lastDay 1800)) :=
    diff_eq_of_correction rfl rfl rfl rfl
  refine ⟨⟨(Reading.check_eq_ok_iff _).1 rfl, rfl, rfl⟩, consistent_sundayHalfPastOne, by decide,
    rfl, rfl, _, _, hdiff, ?_, by decide⟩
  rw [hamounts]
  rfl

end Instant

end CivilTime
