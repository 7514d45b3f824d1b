import CivilTime.Proofs.DifferenceReversed
import CivilTime.Proofs.ReadingOrder

/-!
# The ranges of a difference

The amounts between two readings of a named zone are normal before a correction, and
a correction is made on hours, minutes or days alone.  It can bring these out of
their ranges.

* `clockAmounts_inRange` says that the amounts are in range before a correction,
  whichever of the two exact times is the earlier.
* `ranged_apply_iff` says what each correction needs, by `Correction.Fits`.
* `CorrectionFits` puts it in terms of the two instants, and `ranged_diff_iff` is the
  result.
* `not_ranged_diff_marchFriday` is a span across the start of daylight time with a
  negative number of hours.
-/

namespace CivilTime

namespace Instant

variable {data : ZoneData} {a b one two : Instant}

/-! ## Before a correction -/

/-- Two instants of a named zone are put in the order of their readings. -/
theorem of_inOrder (ha : ConsistentIn data a) (hb : ConsistentIn data b) {exchanged : Bool}
    (h : a.inOrder b = (one, two, exchanged)) :
    ConsistentIn data one ∧ ConsistentIn data two ∧
      one.reading.microTotal ≤ two.reading.microTotal := by
  rw [inOrder_named ha.zone hb.zone] at h
  have hbefore := Reading.before_iff hb.valid ha.valid
  split at h
  · next hexchange =>
    cases h
    exact ⟨hb, ha, Int.le_of_lt (hbefore.1 hexchange)⟩
  · next hkeep =>
    cases h
    exact ⟨ha, hb, Int.not_lt.1 fun hlt => hkeep (hbefore.2 hlt)⟩

theorem clockAmounts_inRange (hone : ConsistentIn data one) (htwo : ConsistentIn data two)
    (hclock : one.reading.microTotal ≤ two.reading.microTotal) :
    (clockAmounts one two).InRange := by
  by_cases hexact : two.epoch < one.epoch
  · exact InReverse.inRange ⟨hone, htwo, hclock, hexact⟩
  · rw [clockAmounts_of_le (Int.not_lt.1 hexact)]
    exact Reading.difference_inRange hone.valid htwo.valid hclock

/-! ## After a correction -/

/-- The amounts of a difference have every unit in its range.  Hours may be 24 if
the last day is reported to count as hours. -/
structure Ranged (x : Amounts) (notes : List Note) : Prop where
  years : 0 ≤ x.years
  months : 0 ≤ x.months ∧ x.months < 12
  days : 0 ≤ x.days
  hours : 0 ≤ x.hours ∧ x.hours ≤ 24
  wholeDay : x.hours = 24 → ∃ seconds, notes = [.endsBefore seconds]
  minutes : 0 ≤ x.minutes ∧ x.minutes < 60
  seconds : 0 ≤ x.seconds ∧ x.seconds < 60
  microseconds : 0 ≤ x.microseconds ∧ x.microseconds < 1000000

/-- A change of the clock can be taken off the hours and the minutes. -/
structure ChangeFits (change : Int) (x : Amounts) : Prop where
  hours : (changeParts change).1 ≤ x.hours ∧ x.hours < 24 + (changeParts change).1
  minutes : (changeParts change).2 ≤ x.minutes ∧ x.minutes < 60 + (changeParts change).2

/-- A correction keeps the units in their ranges. -/
def Correction.Fits (change : Int) (x : Amounts) : Correction → Prop
  | .none => True
  | .backward | .forward => ChangeFits change x
  | .lastDay _ => 1 ≤ x.days

theorem ranged_takenOff_iff {x : Amounts} (h : x.InRange) (change : Int) {note : Note}
    (hnote : ∀ seconds, note ≠ .endsBefore seconds) :
    Ranged (takenOff change x) [note] ↔ ChangeFits change x := by
  constructor
  · intro hranged
    obtain ⟨-, -, -, hhours, hwhole, hminutes, -, -⟩ := hranged
    simp only [takenOff] at hhours hwhole hminutes
    have hless : x.hours - (changeParts change).1 ≠ 24 := by
      intro hday
      obtain ⟨seconds, hreport⟩ := hwhole hday
      exact hnote seconds (List.singleton_inj.1 hreport)
    exact ⟨by omega, by omega⟩
  · intro hfits
    obtain ⟨hhours, hminutes⟩ := hfits
    refine ⟨h.years, h.months, h.days, ?_, ?_, ?_, h.seconds, h.microseconds⟩
    · simp only [takenOff]
      omega
    · intro hday
      simp only [takenOff] at hday
      omega
    · simp only [takenOff]
      omega

/-- Amounts in range stay in range under a correction exactly if it fits. -/
theorem ranged_apply_iff {x : Amounts} (h : x.InRange) (change : Int) (c : Correction) :
    Ranged (c.apply change x).1 (c.apply change x).2 ↔ c.Fits change x := by
  cases c with
  | none =>
    have hhours := h.hours
    have hranged : Ranged x [] :=
      ⟨h.years, h.months, h.days, by omega, fun hday => by omega, h.minutes, h.seconds,
        h.microseconds⟩
    exact iff_of_true hranged trivial
  | backward => exact ranged_takenOff_iff h change fun _ hno => by contradiction
  | forward => exact ranged_takenOff_iff h change fun _ hno => by contradiction
  | lastDay seconds =>
    show Ranged { x with days := x.days - 1, hours := 24 } [.endsBefore seconds] ↔ 1 ≤ x.days
    constructor
    · intro hranged
      have hdays : 0 ≤ x.days - 1 := hranged.days
      omega
    · intro hfits
      have hdays : 0 ≤ x.days - 1 := by omega
      have hhours : (0 : Int) ≤ 24 ∧ (24 : Int) ≤ 24 := by decide
      exact ⟨h.years, h.months, hdays, hhours, fun _ => ⟨seconds, rfl⟩, h.minutes, h.seconds,
        h.microseconds⟩

/-- Whatever the correction, the units that it is not made on are in range, and so
are the minutes if the clock changes by whole hours. -/
structure Bounded (change : Int) (x : Amounts) : Prop where
  years : 0 ≤ x.years
  months : 0 ≤ x.months ∧ x.months < 12
  days : -1 ≤ x.days
  minutes : 3600 ∣ change → 0 ≤ x.minutes ∧ x.minutes < 60
  seconds : 0 ≤ x.seconds ∧ x.seconds < 60
  microseconds : 0 ≤ x.microseconds ∧ x.microseconds < 1000000

theorem bounded_apply {x : Amounts} (h : x.InRange) (change : Int) (c : Correction) :
    Bounded change (c.apply change x).1 := by
  have hdays := h.days
  have hsame : -1 ≤ x.days := by omega
  have hless : -1 ≤ x.days - 1 := by omega
  have hminutes : 3600 ∣ change → 0 ≤ (takenOff change x).minutes ∧
      (takenOff change x).minutes < 60 := by
    intro hwhole
    have hrest : (changeParts change).2 = 0 := by
      simp [changeParts, towardZero, Int.tmod_eq_zero_of_dvd hwhole]
    simp only [takenOff, hrest, Int.sub_zero]
    exact h.minutes
  cases c with
  | none => exact ⟨h.years, h.months, hsame, fun _ => h.minutes, h.seconds, h.microseconds⟩
  | backward => exact ⟨h.years, h.months, hsame, hminutes, h.seconds, h.microseconds⟩
  | forward => exact ⟨h.years, h.months, hsame, hminutes, h.seconds, h.microseconds⟩
  | lastDay seconds =>
    exact ⟨h.years, h.months, hless, fun _ => h.minutes, h.seconds, h.microseconds⟩

/-! ## In terms of the instants -/

/-- What it takes that the difference of two instants in the order of their readings
is in range. -/
structure CorrectionFits (data : ZoneData) (one two : Instant) : Prop where
  /-- The zone has an answer where it is asked about a span of a day or more with
  one daylight flag. -/
  answered : one.isDaylight = two.isDaylight → 86400 ≤ two.epoch - one.epoch →
    ∃ period, data.periodAt (two.epoch - two.kept) = .ok period
  /-- Where the change of the clock is taken off, hours and minutes stay in their
  ranges. -/
  taken : ChangeTaken data one two → ChangeFits (two.kept - one.kept) (clockAmounts one two)
  /-- Where the last day counts as hours, there is a day. -/
  lastDay : one.isDaylight = two.isDaylight → 86400 ≤ two.epoch - one.epoch →
    ∀ period, data.periodAt (two.epoch - two.kept) = .ok period → EndsBefore one two period →
      1 ≤ (clockAmounts one two).days

theorem correctionFits_iff_of_taken (h : ChangeTaken data one two) :
    CorrectionFits data one two ↔ ChangeFits (two.kept - one.kept) (clockAmounts one two) := by
  have hflag := h.flag_ne
  constructor
  · intro hfits
    exact hfits.taken h
  · intro hfits
    exact ⟨fun hsame => absurd hsame hflag, fun _ => hfits, fun hsame => absurd hsame hflag⟩

theorem correctionFits_iff_of_long (hsame : one.isDaylight = two.isDaylight)
    (hday : 86400 ≤ two.epoch - one.epoch) :
    CorrectionFits data one two ↔
      ∃ period, data.periodAt (two.epoch - two.kept) = .ok period ∧
        (EndsBefore one two period → 1 ≤ (clockAmounts one two).days) := by
  constructor
  · intro h
    obtain ⟨period, hperiod⟩ := h.answered hsame hday
    exact ⟨period, hperiod, h.lastDay hsame hday period hperiod⟩
  · rintro ⟨period, hperiod, hdays⟩
    refine ⟨fun _ _ => ⟨period, hperiod⟩, fun htaken => absurd hsame htaken.flag_ne, ?_⟩
    intro _ _ period' hperiod' hends
    cases hperiod.symm.trans hperiod'
    exact hdays hends

/-- Where no correction is looked for, there is none to fit. -/
theorem correctionFits_of_none (htaken : ¬ ChangeTaken data one two)
    (hlong : ¬ (one.isDaylight = two.isDaylight ∧ 86400 ≤ two.epoch - one.epoch)) :
    CorrectionFits data one two := by
  refine ⟨?_, ?_, ?_⟩
  · intro hsame hday
    exact absurd ⟨hsame, hday⟩ hlong
  · intro h
    exact absurd h htaken
  · intro hsame hday
    exact absurd ⟨hsame, hday⟩ hlong

/-- The correction of a span of a day or more with one daylight flag. -/
theorem lastDayCorrection_fits_iff (change : Int) (x : Amounts) (period : Option OffsetPeriod) :
    (lastDayCorrection one two period).Fits change x ↔
      (EndsBefore one two period → 1 ≤ x.days) := by
  rcases lastDayCorrection_cases one two period with ⟨hends, seconds, hlast⟩ | ⟨hnot, hnone⟩
  · rw [hlast]
    exact ⟨fun hdays _ => hdays, fun h => h hends⟩
  · rw [hnone]
    exact iff_of_true trivial fun hends => absurd hends hnot

theorem exists_correction_fits_iff (htwo : ConsistentIn data two) :
    (∃ c, correction data one two (two.kept - one.kept) = .ok c ∧
        c.Fits (two.kept - one.kept) (clockAmounts one two)) ↔
      CorrectionFits data one two := by
  by_cases htaken : ChangeTaken data one two
  · rw [correctionFits_iff_of_taken htaken]
    rcases htaken.correction_eq with hc | hc
    · simp only [hc, Except.ok.injEq, exists_eq_left']
      exact Iff.rfl
    · simp only [hc, Except.ok.injEq, exists_eq_left']
      exact Iff.rfl
  by_cases hlong : one.isDaylight = two.isDaylight ∧ 86400 ≤ two.epoch - one.epoch
  · rw [correctionFits_iff_of_long hlong.1 hlong.2, correction_of_sameFlag hlong.1,
      if_pos hlong.2]
    constructor
    · rintro ⟨c, hc, hfits⟩
      obtain ⟨period, hperiod, rfl⟩ := map_eq_ok.1 hc
      exact ⟨period, hperiod, (lastDayCorrection_fits_iff _ _ period).1 hfits⟩
    · rintro ⟨period, hperiod, hdays⟩
      have hfits := (lastDayCorrection_fits_iff (two.kept - one.kept) _ period).2 hdays
      exact ⟨_, map_eq_ok.2 ⟨period, hperiod, rfl⟩, hfits⟩
  · have hc := correction_of_not_changeTaken htwo htaken fun hsame =>
      Int.not_le.1 fun hday => hlong ⟨hsame, hday⟩
    exact iff_of_true ⟨.none, hc, trivial⟩ (correctionFits_of_none htaken hlong)

/-- The difference of two instants of a named zone keeps the units that no correction
is made on in their ranges.  There is a difference with every unit in its range
exactly if the correction of these instants fits. -/
theorem ranged_diff_iff (ha : a.Consistent) (hb : b.Consistent) (hazone : a.zone = .named data)
    (hbzone : b.zone = .named data) {exchanged : Bool}
    (horder : a.inOrder b = (one, two, exchanged)) :
    (∀ i notes, a.diff b = .ok (i, notes) → Bounded (two.kept - one.kept) i.amounts) ∧
      ((∃ i notes, a.diff b = .ok (i, notes) ∧ Ranged i.amounts notes) ↔
        CorrectionFits data one two) := by
  obtain ⟨hone, htwo, hclock⟩ := of_inOrder ⟨ha, hazone⟩ ⟨hb, hbzone⟩ horder
  have hamounts := clockAmounts_inRange hone htwo hclock
  rw [diff_named hazone hbzone, sameZone_eq horder, ← exists_correction_fits_iff htwo]
  constructor
  · intro i notes hdiff
    obtain ⟨c, -, hi⟩ := map_eq_ok.1 hdiff
    cases hi
    exact bounded_apply hamounts _ c
  · constructor
    · rintro ⟨i, notes, hdiff, hranged⟩
      obtain ⟨c, hc, hi⟩ := map_eq_ok.1 hdiff
      cases hi
      exact ⟨c, hc, (ranged_apply_iff hamounts _ c).1 hranged⟩
    · rintro ⟨c, hc, hfits⟩
      exact ⟨_, _, map_eq_ok.2 ⟨c, hc, rfl⟩, (ranged_apply_iff hamounts _ c).2 hfits⟩

/-- Three days before the clock of the zone goes back. -/
def thursdayHalfPastOne : Instant where
  reading := ⟨2023, 11, 2, 1, 30, 0, 0⟩
  epoch := 1698903000
  kept := -14400
  isDaylight := true
  zone := .named eastern

/-- Of three days that end before the clock goes back, the last one counts as
24 hours. -/
theorem ranged_diff_thursdayHalfPastOne :
    ∃ i notes, thursdayHalfPastOne.diff sundayHalfPastOne = .ok (i, notes) ∧
      Ranged i.amounts notes := by
  have hthursday : thursdayHalfPastOne.Consistent := ⟨(Reading.check_eq_ok_iff _).1 rfl, rfl, rfl⟩
  have hdays : clockAmounts thursdayHalfPastOne sundayHalfPastOne = { days := 3 } :=
    Amounts.normalize_of_nonneg (by decide) _ _
  refine (ranged_diff_iff hthursday consistent_sundayHalfPastOne rfl rfl rfl).2.2
    ⟨fun _ _ => ⟨_, rfl⟩, fun htaken => absurd rfl htaken.flag_ne, fun _ _ _ _ _ => ?_⟩
  rw [hdays]
  decide

/-- Two days before the clock of the zone goes forward. -/
def marchFriday : Instant where
  reading := ⟨2023, 3, 10, 2, 45, 0, 0⟩
  epoch := 1678434300
  kept := -18000
  isDaylight := false
  zone := .named eastern

/-- Five minutes after it went forward. -/
def marchSunday : Instant where
  reading := ⟨2023, 3, 12, 3, 5, 0, 0⟩
  epoch := 1678604700
  kept := -14400
  isDaylight := true
  zone := .named eastern

/-- The hour that the clock skips is taken off two days and 20 minutes, and leaves
the hours at minus one. -/
theorem not_ranged_diff_marchFriday :
    marchFriday.Consistent ∧ marchSunday.Consistent ∧ marchFriday.zone = .named eastern ∧
      marchSunday.zone = .named eastern ∧
      ∃ i notes, marchFriday.diff marchSunday = .ok (i, notes) ∧
        i.amounts = { days := 2, hours := -1, minutes := 20 } ∧ ¬ Ranged i.amounts notes := by
  have hamounts : clockAmounts marchFriday marchSunday = { days := 2, minutes := 20 } :=
    Amounts.normalize_of_nonneg (by decide) _ _
  have hdiff : marchFriday.diff marchSunday =
      .ok (correctedInterval marchFriday marchSunday false .forward) :=
    diff_eq_of_correction rfl rfl rfl rfl
  have hresult : (correctedInterval marchFriday marchSunday false .forward).1.amounts =
      { days := 2, hours := -1, minutes := 20 } := by
    rw [correctedInterval, hamounts]
    rfl
  refine ⟨⟨(Reading.check_eq_ok_iff _).1 rfl, rfl, rfl⟩,
    ⟨(Reading.check_eq_ok_iff _).1 rfl, rfl, rfl⟩, rfl, rfl,
    (correctedInterval marchFriday marchSunday false .forward).1, _, hdiff, hresult,
    fun hranged => ?_⟩
  have hhours := hranged.hours.1
  rw [hresult] at hhours
  contradiction

end Instant

end CivilTime
