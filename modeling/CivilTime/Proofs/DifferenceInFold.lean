import CivilTime.Proofs.DifferenceReversed
import CivilTime.Proofs.ReadingOrder

/-!
# The difference within a fold

Of two instants of a named zone, the one of the earlier exact time may have the
later reading, because the clock goes back between them.  Their difference is then
counted in reverse, so that it should be the time that passes.

* `InReverse.exists_correction` says that there always is a difference, and whether
  the change of the clock is taken off.
* `InReverse.eq_elapsed_iff` and `InReverse.takenOff_eq_elapsed_iff` say when amounts
  in reverse are the time that passes.  Only the minutes and seconds of two readings
  are counted in reverse, while their dates, hours and microseconds are not.
* `diff_inFold_iff` is the result, and `not_diff_inFold_midnight` a fold around
  midnight in which the difference is more than a day.
-/

namespace CivilTime

namespace Instant

variable {data : ZoneData} {a b one two : Instant}

/-- What it takes that amounts in reverse are the time that passes. -/
structure CountsElapsed (data : ZoneData) (one two : Instant) : Prop where
  microsecond : one.microsecond = two.microsecond
  /-- No months are counted. -/
  months : monthIndex one.reading.year one.reading.month =
      monthIndex two.reading.year two.reading.month ∨
    reverseMicros one two < lengthOf (monthIndex one.reading.year one.reading.month) * 86400000000
  /-- If the change of the clock is not taken off, only minutes and seconds differ. -/
  untaken : ¬ ChangeTaken data one two →
    one.reading.date = two.reading.date ∧ one.reading.hour = two.reading.hour
  /-- Else its whole minutes are the dates and the hours counted twice. -/
  taken : ChangeTaken data one two →
    ((two.reading.dayTotal - one.reading.dayTotal) * 48 +
        (two.reading.hour - one.reading.hour)) * 60 = (two.kept - one.kept) / 60

namespace InReverse

theorem exists_correction (h : InReverse data one two) :
    ∃ c, correction data one two (two.kept - one.kept) = .ok c ∧
      (ChangeTaken data one two →
        ∀ x, (c.apply (two.kept - one.kept) x).1 = takenOff (two.kept - one.kept) x) ∧
      (¬ ChangeTaken data one two → ∀ x, (c.apply (two.kept - one.kept) x).1 = x) := by
  have hearlier := h.earlier
  by_cases htaken : ChangeTaken data one two
  · obtain ⟨c, hc, happly⟩ := htaken.exists_correction
    exact ⟨c, hc, fun _ => happly, fun huntaken => absurd htaken huntaken⟩
  · have hc := correction_of_not_changeTaken h.second htaken fun _ => by omega
    exact ⟨.none, hc, fun hno => absurd hno htaken, fun _ _ => rfl⟩

/-- Without a correction, amounts in reverse are the time that passes if the readings
differ in minutes and seconds only. -/
theorem eq_elapsed_iff (h : InReverse data one two) :
    reverseMicros one two = one.microEpoch - two.microEpoch ↔
      one.microsecond = two.microsecond ∧
        one.reading.date = two.reading.date ∧ one.reading.hour = two.reading.hour := by
  have honemicro := h.first.micro_bounds
  have htwomicro := h.second.micro_bounds
  have hforward := h.dates_and_hours_nonneg
  rw [h.reverseMicros_eq, Reading.date_eq_iff h.first.valid h.second.valid]
  omega

/-- With the whole minutes of the change taken off, they are the time that passes if
these are the dates and hours counted twice. -/
theorem takenOff_eq_elapsed_iff (h : InReverse data one two) :
    reverseMicros one two - ((changeParts (two.kept - one.kept)).1 * 3600 +
        (changeParts (two.kept - one.kept)).2 * 60) * 1000000 =
        one.microEpoch - two.microEpoch ↔
      one.microsecond = two.microsecond ∧
        ((two.reading.dayTotal - one.reading.dayTotal) * 48 +
          (two.reading.hour - one.reading.hour)) * 60 = (two.kept - one.kept) / 60 := by
  have honemicro := h.first.micro_bounds
  have htwomicro := h.second.micro_bounds
  rw [h.reverseMicros_eq, changeParts_of_nonneg (Int.le_of_lt h.change_pos)]
  dsimp only
  omega

theorem countsElapsed_iff_of_untaken (h : InReverse data one two)
    (huntaken : ¬ ChangeTaken data one two) :
    ((clockAmounts one two).years = 0 ∧ (clockAmounts one two).months = 0) ∧
        (clockAmounts one two).days * 86400000000 + (clockAmounts one two).timeMicros =
          one.microEpoch - two.microEpoch ↔
      CountsElapsed data one two := by
  constructor
  · intro hcounts
    obtain ⟨hnone, hsum⟩ := hcounts
    rw [h.total_eq hnone, h.eq_elapsed_iff] at hsum
    exact ⟨hsum.1, h.noMonths_iff.1 hnone, fun _ => hsum.2, fun htaken => absurd htaken huntaken⟩
  · intro hfits
    have hnone := h.noMonths_iff.2 hfits.months
    rw [h.total_eq hnone, h.eq_elapsed_iff]
    exact ⟨hnone, hfits.microsecond, hfits.untaken huntaken⟩

theorem countsElapsed_iff_of_taken (h : InReverse data one two)
    (htaken : ChangeTaken data one two) :
    ((clockAmounts one two).years = 0 ∧ (clockAmounts one two).months = 0) ∧
        (clockAmounts one two).days * 86400000000 +
            (takenOff (two.kept - one.kept) (clockAmounts one two)).timeMicros =
          one.microEpoch - two.microEpoch ↔
      CountsElapsed data one two := by
  rw [timeMicros_takenOff, ← Int.add_sub_assoc]
  constructor
  · intro hcounts
    obtain ⟨hnone, hsum⟩ := hcounts
    rw [h.total_eq hnone, h.takenOff_eq_elapsed_iff] at hsum
    exact ⟨hsum.1, h.noMonths_iff.1 hnone, fun huntaken => absurd htaken huntaken, fun _ => hsum.2⟩
  · intro hfits
    have hnone := h.noMonths_iff.2 hfits.months
    rw [h.total_eq hnone, h.takenOff_eq_elapsed_iff]
    exact ⟨hnone, hfits.microsecond, hfits.taken htaken⟩

end InReverse

/-- Of two instants of a named zone, the one of the earlier exact time has the later
reading.  There is a difference, and it is the time that passes, in days and smaller
units, exactly under the conditions of `CountsElapsed`. -/
theorem diff_inFold_iff (ha : a.Consistent) (hb : b.Consistent) (hazone : a.zone = .named data)
    (hbzone : b.zone = .named data) (hexact : a.earlierThan b = true)
    (hclock : b.reading.before a.reading = true) :
    ∃ amounts days notes,
      a.diff b = .ok (⟨amounts, false, some days⟩, notes) ∧
      (amounts.years = 0 ∧ amounts.months = 0 ∧
          amounts.days * 86400000000 +
              ((amounts.hours * 60 + amounts.minutes) * 60 + amounts.seconds) * 1000000 +
              amounts.microseconds = b.microEpoch - a.microEpoch ↔
        CountsElapsed data b a) := by
  have ha : ConsistentIn data a := ⟨ha, hazone⟩
  have hb : ConsistentIn data b := ⟨hb, hbzone⟩
  have hforward := (Reading.before_iff hb.valid ha.valid).1 hclock
  have hreverse := inReverse_of_microEpoch hb ha (Int.le_of_lt hforward)
    ((ha.earlierThan_iff hb).1 hexact)
  obtain ⟨c, hc, htaken, huntaken⟩ := hreverse.exists_correction
  refine ⟨(c.apply (a.kept - b.kept) (clockAmounts b a)).1, wholeDays b a,
    (c.apply (a.kept - b.kept) (clockAmounts b a)).2, ?_, ?_⟩
  · have hdirection : (true != decide (a.epoch < b.epoch)) = false := by
      simpa using hreverse.earlier
    rw [diff_eq_of_before ha hb hclock, hc, Except.map, correctedInterval, hdirection]
  · rw [Int.add_assoc, ← Amounts.timeMicros_horner, ← and_assoc]
    by_cases hchange : ChangeTaken data b a
    · rw [htaken hchange]
      exact hreverse.countsElapsed_iff_of_taken hchange
    · rw [huntaken hchange]
      exact hreverse.countsElapsed_iff_of_untaken hchange

/-- Before the clock of the zone goes back. -/
def sundayBeforeTwo : Instant where
  reading := ⟨2023, 11, 5, 1, 50, 20, 500000⟩
  epoch := 1699163420
  kept := -14400
  isDaylight := true
  zone := .named eastern

/-- Half an hour later, after it went back. -/
def sundayTwentyPastOne : Instant where
  reading := ⟨2023, 11, 5, 1, 20, 5, 500000⟩
  epoch := 1699165205
  kept := -18000
  isDaylight := false
  zone := .named eastern

/-- Both readings show the same hour, and their difference is the time that passes:
29 minutes and 45 seconds. -/
theorem diff_inFold_sundayBeforeTwo :
    ∃ amounts days notes,
      sundayBeforeTwo.diff sundayTwentyPastOne = .ok (⟨amounts, false, some days⟩, notes) ∧
      amounts.years = 0 ∧ amounts.months = 0 ∧
      amounts.days * 86400000000 +
          ((amounts.hours * 60 + amounts.minutes) * 60 + amounts.seconds) * 1000000 +
          amounts.microseconds = 1785000000 := by
  have hbefore : sundayBeforeTwo.Consistent := ⟨(Reading.check_eq_ok_iff _).1 rfl, rfl, rfl⟩
  have hafter : sundayTwentyPastOne.Consistent := ⟨(Reading.check_eq_ok_iff _).1 rfl, rfl, rfl⟩
  obtain ⟨amounts, days, notes, hdiff, helapsed⟩ :=
    diff_inFold_iff hbefore hafter rfl rfl (by decide) (by decide)
  refine ⟨amounts, days, notes, hdiff, helapsed.2 ⟨rfl, Or.inl rfl, fun _ => ⟨rfl, rfl⟩, ?_⟩⟩
  intro htaken
  cases htaken with
  | stops hno => contradiction
  | starts _ _ offset transition flag hperiod hcounted =>
    cases hperiod
    contradiction

/-- A zone three and a half hours behind, whose clock changes by an hour at one
minute past midnight. -/
def newfoundland : ZoneData :=
  .ofRule none {
    standard := -12600
    daylight := some {
      offset := -9000
      start := ⟨.nthWeekday 3 2 0, 60⟩
      stop := ⟨.nthWeekday 11 1 0, 60⟩ } }

/-- Half a minute before the clock of that zone goes back over midnight. -/
def justAfterMidnight : Instant where
  reading := ⟨2010, 11, 7, 0, 0, 30, 0⟩
  epoch := 1289097030
  kept := -9000
  isDaylight := true
  zone := .named newfoundland

/-- Half a minute before midnight comes again. -/
def justBeforeMidnight : Instant where
  reading := ⟨2010, 11, 6, 23, 59, 30, 0⟩
  epoch := 1289100570
  kept := -12600
  isDaylight := false
  zone := .named newfoundland

/-- From the one to the other 59 minutes pass, but their difference is a day more
than an hour and 59 minutes. -/
theorem not_diff_inFold_midnight :
    justAfterMidnight.Consistent ∧ justBeforeMidnight.Consistent ∧
      justAfterMidnight.zone = .named newfoundland ∧
      justBeforeMidnight.zone = .named newfoundland ∧
      justAfterMidnight.earlierThan justBeforeMidnight = true ∧
      justBeforeMidnight.reading.before justAfterMidnight.reading = true ∧
      ∃ amounts, justAfterMidnight.diff justBeforeMidnight =
          .ok (⟨amounts, false, some 1⟩, []) ∧
        amounts = { days := 1, hours := 1, minutes := 59 } ∧
        justBeforeMidnight.microEpoch - justAfterMidnight.microEpoch = 59 * 60000000 ∧
        amounts.days * 86400000000 +
            ((amounts.hours * 60 + amounts.minutes) * 60 + amounts.seconds) * 1000000 +
            amounts.microseconds ≠
          justBeforeMidnight.microEpoch - justAfterMidnight.microEpoch := by
  have hamounts : clockAmounts justBeforeMidnight justAfterMidnight =
      { days := 1, hours := 1, minutes := 59 } :=
    Amounts.normalize_of_nonneg (by decide) _ _
  have hdiff : justAfterMidnight.diff justBeforeMidnight =
      .ok (correctedInterval justBeforeMidnight justAfterMidnight true .none) :=
    diff_eq_of_correction rfl rfl rfl rfl
  refine ⟨⟨(Reading.check_eq_ok_iff _).1 rfl, rfl, rfl⟩,
    ⟨(Reading.check_eq_ok_iff _).1 rfl, rfl, rfl⟩, rfl, rfl, by decide, by decide,
    _, ?_, rfl, by decide, by decide⟩
  rw [hdiff, correctedInterval, hamounts]
  rfl

end Instant

end CivilTime
