import CivilTime.Proofs.ElapsedTime

/-!
# Spans of less than a day

Less than a day apart on the clock of a named zone, two instants differ by the
time that passes between them, also where the clock changes on the way.

* `addWall_eq` says that adding the time that passes leads from one instant to
  another.
* `ClockChange` lists how the clock may change between the two instants, and
  `exists_correction_takenOff` is the reason for the result: the correction takes
  exactly that change off the difference of the readings.
* `diff_within_day` is the result.
-/

namespace CivilTime

namespace Instant

variable {data : ZoneData} {a b : Instant}

/-! ## Elapsed time -/

/-- Amounts below the day that stand for the time from one instant of a zone to
another lead there. -/
theorem addWall_eq (ha : ConsistentIn data a) (hb : ConsistentIn data b) {x : Amounts}
    (hdate : x.isTimeOnly = true) (htime : x.timeMicros = b.microEpoch - a.microEpoch)
    (totalDays : Option Int) :
    a.addWall (.interval ⟨x, false, totalDays⟩) = .ok b := by
  have hdate' : (Interval.mk x false totalDays).amounts.isTimeOnly = true := hdate
  rw [addWall_eq_elapse a hdate', Interval.signed_forward]
  exact elapse_eq_ok_iff.2 ⟨hb.toConsistent, hb.zone.trans ha.zone.symm, by omega⟩

/-! ## The change of the clock -/

/-- How the clock may change from one instant to another.  Daylight time starts
at a transition that is found around the second instant and does not set the
clock back. -/
inductive ClockChange (data : ZoneData) (a b : Instant) : Prop
  | unchanged (hkept : a.kept = b.kept) (hflag : a.isDaylight = b.isDaylight)
  | stops (hbefore : a.isDaylight = true) (hafter : b.isDaylight = false)
  | starts (hbefore : a.isDaylight = false) (hafter : b.isDaylight = true)
      (hahead : a.kept ≤ b.kept) (offset transition : Int) (flag : Bool)
      (hperiod : data.periodAt b.epoch = .ok (some ⟨offset, some transition, flag⟩))
      (hlater : a.epoch < transition) (hreached : transition ≤ b.epoch)

/-- Over a transition to daylight time the step of the clock is counted, as it is
in any span of less than a day on the clock. -/
theorem countsStep_of_lt {transition : Int} (hforward : a.epoch + a.kept ≤ b.epoch + b.kept)
    (hday : b.epoch + b.kept - (a.epoch + a.kept) < 86400) (hahead : a.kept ≤ b.kept)
    (hlater : a.epoch < transition) (hreached : transition ≤ b.epoch) :
    countsStep a b transition (b.kept - a.kept) = true := by
  have hspan : b.epoch - a.epoch + (b.kept - a.kept) = b.epoch + b.kept - (a.epoch + a.kept) := by
    omega
  have hrest : (b.epoch + b.kept - (a.epoch + a.kept)).tmod 86400 =
      b.epoch + b.kept - (a.epoch + a.kept) :=
    Int.tmod_eq_of_lt (by omega) hday
  simp only [countsStep, hspan, hrest, Bool.and_eq_true, Bool.not_eq_true', Bool.and_eq_false_imp,
    decide_eq_true_eq, decide_eq_false_iff_not]
  omega

theorem exists_correction_takenOff (h : ClockChange data a b)
    (hforward : a.epoch + a.kept ≤ b.epoch + b.kept)
    (hday : b.epoch + b.kept - (a.epoch + a.kept) < 86400) :
    ∃ c, correction data a b (b.kept - a.kept) = .ok c ∧
      ∀ x, (c.apply (b.kept - a.kept) x).1 = takenOff (b.kept - a.kept) x := by
  cases h with
  | unchanged hkept hflag =>
    refine ⟨.none, ?_, fun x => ?_⟩
    · rw [correction_of_sameFlag hflag, if_neg (by omega)]
    · rw [hkept, Int.sub_self]
      simp [takenOff, Correction.apply, changeParts, towardZero]
  | stops hbefore hafter => exact ChangeTaken.exists_correction (.stops hbefore hafter (by omega))
  | starts hbefore hafter hahead offset transition flag hperiod hlater hreached =>
    have hcounts := countsStep_of_lt hforward hday hahead hlater hreached
    exact ChangeTaken.exists_correction
      (.starts hbefore hafter offset transition flag hperiod hcounts)

/-! ## The difference -/

/-- Two instants of a named zone, in order both on the clock and in exact time
and less than a day apart on the clock, differ by the hours and smaller units
that pass between them, if the clock changes by whole minutes.  Letting these
pass leads from the first to the second. -/
theorem diff_within_day (ha : a.Consistent) (hb : b.Consistent) (hazone : a.zone = .named data)
    (hbzone : b.zone = .named data) (hexact : b.earlierThan a = false)
    (hclock : b.reading.before a.reading = false)
    (hday : b.epoch + b.kept - (a.epoch + a.kept) < 86400) (hminutes : 60 ∣ b.kept - a.kept)
    (hchange : ClockChange data a b) :
    ∃ amounts days notes,
      a.diff b = .ok (⟨amounts, false, some days⟩, notes) ∧
      amounts.years = 0 ∧ amounts.months = 0 ∧ amounts.days = 0 ∧
      ((amounts.hours * 60 + amounts.minutes) * 60 + amounts.seconds) * 1000000 +
        amounts.microseconds = b.microEpoch - a.microEpoch ∧
      a.addWall (.interval ⟨amounts, false, some days⟩) = .ok b := by
  have ha : ConsistentIn data a := ⟨ha, hazone⟩
  have hb : ConsistentIn data b := ⟨hb, hbzone⟩
  have hamicro := ha.micro_bounds
  have hbmicro := hb.micro_bounds
  have helapsed := (hb.earlierThan_eq_false_iff ha).1 hexact
  have hspan := (hb.before_eq_false_iff ha).1 hclock
  have hseconds : a.epoch ≤ b.epoch ∧ a.epoch + a.kept ≤ b.epoch + b.kept := by
    unfold microEpoch at helapsed hspan
    omega
  -- On the clock the readings are less than a day apart, in hours and smaller units.
  have hatotal := ha.microTotal_eq
  have hbtotal := hb.microTotal_eq
  obtain ⟨hyears, hmonths, hdays, htime⟩ := Reading.normalize_difference_of_lt_day ha.valid hb.valid
    (by omega) (by unfold microEpoch at *; omega)
  rw [← clockAmounts_of_le hseconds.1] at hyears hmonths hdays htime
  -- The correction takes the change of the clock off.
  obtain ⟨c, hc, happly⟩ := exists_correction_takenOff hchange hseconds.2 hday
  have hwhole := changeParts_whole hminutes
  have htaken := timeMicros_takenOff (b.kept - a.kept) (clockAmounts a b)
  have hresult : (takenOff (b.kept - a.kept) (clockAmounts a b)).timeMicros =
      b.microEpoch - a.microEpoch := by
    omega
  refine ⟨takenOff (b.kept - a.kept) (clockAmounts a b), wholeDays a b,
    (c.apply (b.kept - a.kept) (clockAmounts a b)).2, ?_, hyears, hmonths, hdays, ?_, ?_⟩
  · rw [diff_eq_of_not_before ha hb hclock, hc]
    have hdirection : (false != decide (b.epoch < a.epoch)) = false := by
      simpa using hseconds.1
    rw [Except.map, correctedInterval, happly, hdirection]
  · rw [← hresult, Amounts.timeMicros, clockSeconds]
    omega
  · refine addWall_eq ha hb ?_ hresult _
    simp [Amounts.isTimeOnly, takenOff, hyears, hmonths, hdays]

/-- Less than four hours before the clock of the zone goes forward. -/
def saturdayNight : Instant where
  reading := ⟨2023, 3, 11, 22, 50, 20, 700000⟩
  epoch := 1678593020
  kept := -18000
  isDaylight := false
  zone := .named eastern

/-- More than three hours after the clock of the zone went forward. -/
def sundayMorning : Instant where
  reading := ⟨2023, 3, 12, 6, 10, 5, 200000⟩
  epoch := 1678615805
  kept := -14400
  isDaylight := true
  zone := .named eastern

/-- The hour that is skipped in between does not count. -/
theorem diff_saturdayNight_sundayMorning :
    ∃ amounts days notes,
      saturdayNight.diff sundayMorning = .ok (⟨amounts, false, some days⟩, notes) ∧
      amounts.years = 0 ∧ amounts.months = 0 ∧ amounts.days = 0 ∧
      ((amounts.hours * 60 + amounts.minutes) * 60 + amounts.seconds) * 1000000 +
        amounts.microseconds = 22784500000 ∧
      saturdayNight.addWall (.interval ⟨amounts, false, some days⟩) = .ok sundayMorning := by
  have hnight : saturdayNight.Consistent :=
    ⟨(Reading.check_eq_ok_iff _).1 rfl, rfl, rfl⟩
  have hmorning : sundayMorning.Consistent :=
    ⟨(Reading.check_eq_ok_iff _).1 rfl, rfl, rfl⟩
  have hchange : ClockChange eastern saturdayNight sundayMorning :=
    .starts rfl rfl (by decide) (-14400) 1678604400 true rfl (by decide) (by decide)
  exact diff_within_day hnight hmorning rfl rfl (by decide) (by decide) (by decide) (by decide)
    hchange

end Instant

end CivilTime
