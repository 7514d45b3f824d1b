import CivilTime.Proofs.DifferenceAcrossZones
import CivilTime.Proofs.DifferenceReversed

/-!
# Differences tell instants apart

Asked from either side, the difference of two instants of a named zone has the
same amounts, and these are zero only between equal instants.  The exceptions lie
where the clock goes back, and depend on which of the two instants shows daylight
time.

* `separates_iff_of_before` is about readings in a strict order: both sides take
  the same amounts and apply the same correction.
* `corrected_ne_zero` says that no correction cancels a difference of instants
  that come in the same order.  `Reversed.takenOff_eq_zero_iff` says when one does
  in the reverse order.
* `Repeated.separates_iff_stops` is about two instants with one reading, where the
  two sides take different amounts.
* `separates_iff` is the result, and `not_separates_dublinFold` is a fold in which
  two instants an hour apart differ by nothing.
-/

namespace CivilTime

namespace Instant

variable {data : ZoneData} {a b one two s t : Instant}

/-- The differences of two instants from either side agree but for the direction,
and they are zero exactly at one time. -/
def Separates (s t : Instant) : Prop :=
  ∃ i j notes notes',
    s.diff t = .ok (i, notes) ∧ t.diff s = .ok (j, notes') ∧
    i.amounts = j.amounts ∧ i.totalDays = j.totalDays ∧
    (i.amounts = {} ↔ s.sameTime t = true)

theorem Separates.symm (h : Separates s t) : Separates t s := by
  obtain ⟨i, j, notes, notes', hforward, hbackward, hamounts, hdays, hzero⟩ := h
  have hcomm : s.sameTime t = t.sameTime s := by
    rw [Bool.eq_iff_iff, sameTime_iff, sameTime_iff]
    omega
  rw [hamounts, hcomm] at hzero
  exact ⟨j, i, notes', notes, hbackward, hforward, hamounts.symm, hdays.symm, hzero⟩

theorem separates_comm : Separates s t ↔ Separates t s :=
  ⟨Separates.symm, Separates.symm⟩

theorem before_self (h : ConsistentIn data s) : s.reading.before s.reading = false :=
  (h.before_eq_false_iff h).2 (Int.le_refl _)

/-! ## Readings in a strict order -/

theorem separates_iff_of_before (hone : ConsistentIn data one) (htwo : ConsistentIn data two)
    (h : one.reading.before two.reading = true) :
    Separates one two ↔ ∃ c, correction data one two (two.kept - one.kept) = .ok c ∧
      (c.apply (two.kept - one.kept) (clockAmounts one two)).1 ≠ {} := by
  have hclock := (hone.before_iff htwo).1 h
  have hback : two.reading.before one.reading = false := by
    rw [htwo.before_eq_false_iff hone]
    omega
  have hdiffer : ¬ one.sameTime two = true := by
    rw [sameTime_iff]
    rintro ⟨hepoch, hmicro⟩
    have hkept := (hone.kept_eq htwo hepoch).1
    unfold microEpoch at hclock
    omega
  rw [Separates, diff_eq_of_not_before hone htwo hback, diff_eq_of_before htwo hone h]
  constructor
  · rintro ⟨i, j, notes, notes', hforward, -, -, -, hzero⟩
    obtain ⟨c, hc, hi⟩ := map_eq_ok.1 hforward
    cases hi
    exact ⟨c, hc, fun h => hdiffer (hzero.1 h)⟩
  · rintro ⟨c, hc, hne⟩
    rw [hc]
    exact ⟨_, _, _, _, rfl, rfl, rfl, rfl, iff_of_false hne hdiffer⟩

/-- There is a correction if the zone answers where it is asked. -/
theorem exists_correction_iff (htwo : ConsistentIn data two) (change : Int) :
    (∃ c, correction data one two change = .ok c) ↔
      (one.isDaylight = two.isDaylight → 86400 ≤ two.epoch - one.epoch →
        ∃ period, data.periodAt (two.epoch - two.kept) = .ok period) := by
  cases hbefore : one.isDaylight <;> cases hafter : two.isDaylight
  case true.false =>
    rw [correction_of_stops hbefore hafter]
    simp
  case false.true =>
    obtain ⟨period, hperiod⟩ := exists_periodAt_of_offsetAt htwo.offsetAt
    rw [correction_of_starts hbefore hafter, hperiod]
    simp [Except.map]
  all_goals
    rw [correction_of_sameFlag (hbefore.trans hafter.symm)]
    split
    · next hlong =>
      cases data.periodAt (two.epoch - two.kept) <;> simp [Except.map, hlong]
    · next hshort => simp [hshort]

/-! ## Instants in order -/

/-- Where exact time goes forward, the clock does so by more than its change, and
taking off the change leaves something. -/
theorem takenOff_ne_zero (hone : ConsistentIn data one) (htwo : ConsistentIn data two)
    (hclock : one.reading.before two.reading = true) (hexact : one.microEpoch < two.microEpoch) :
    takenOff (two.kept - one.kept) (clockAmounts one two) ≠ {} := by
  intro hzero
  have honemicro := hone.micro_bounds
  have htwomicro := htwo.micro_bounds
  have honetotal := hone.microTotal_eq
  have htwototal := htwo.microTotal_eq
  have hforward := (Reading.before_iff hone.valid htwo.valid).1 hclock
  have htotal := Reading.microTotal_eq_plus_difference hone.valid htwo.valid (Int.le_of_lt hforward)
  have htime := timeMicros_takenOff (two.kept - one.kept) (clockAmounts one two)
  have hyears : (clockAmounts one two).years = 0 := congrArg Amounts.years hzero
  have hmonths : (clockAmounts one two).months = 0 := congrArg Amounts.months hzero
  have hdays : (clockAmounts one two).days = 0 := congrArg Amounts.days hzero
  have hnothing : Amounts.timeMicros {} = 0 := rfl
  have hparts := changeParts_le (two.kept - one.kept)
  rw [← clockAmounts_of_le (by unfold microEpoch at hexact; omega)] at htotal
  simp only [hyears, hmonths, hdays, Int.mul_zero, Int.add_zero, Int.sub_self] at htotal
  rw [hzero, hnothing] at htime
  -- The readings would be apart by the change, and the exact times by nothing.
  omega

theorem corrected_ne_zero (hone : ConsistentIn data one) (htwo : ConsistentIn data two)
    (hclock : one.reading.before two.reading = true) (hexact : one.microEpoch < two.microEpoch)
    (c : Correction) : (c.apply (two.kept - one.kept) (clockAmounts one two)).1 ≠ {} := by
  have htaken := takenOff_ne_zero hone htwo hclock hexact
  cases c with
  | none =>
    have honemicro := hone.micro_bounds
    have htwomicro := htwo.micro_bounds
    have hforward := (Reading.before_iff hone.valid htwo.valid).1 hclock
    have hzero := Reading.normalize_difference_eq_zero_iff hone.valid htwo.valid
      (Int.le_of_lt hforward)
    rw [← clockAmounts_of_le (by unfold microEpoch at hexact; omega)] at hzero
    intro h
    rw [hzero.1 h] at hforward
    exact Int.lt_irrefl _ hforward
  | backward => exact htaken
  | forward => exact htaken
  | lastDay seconds =>
    intro h
    have hhours : (24 : Int) = 0 := congrArg Amounts.hours h
    contradiction

/-- Instants in order are told apart if the zone answers. -/
theorem separates_iff_answered (hone : ConsistentIn data one) (htwo : ConsistentIn data two)
    (hclock : one.reading.before two.reading = true) (hexact : one.microEpoch < two.microEpoch) :
    Separates one two ↔
      (one.isDaylight = two.isDaylight → 86400 ≤ two.epoch - one.epoch →
        ∃ period, data.periodAt (two.epoch - two.kept) = .ok period) := by
  rw [separates_iff_of_before hone htwo hclock,
    ← exists_correction_iff htwo (two.kept - one.kept)]
  exact ⟨fun ⟨c, hc, _⟩ => ⟨c, hc⟩,
    fun ⟨c, hc⟩ => ⟨c, hc, corrected_ne_zero hone htwo hclock hexact c⟩⟩

/-! ## Amounts in reverse on one date -/

/-- On one date, amounts in reverse are the change of the clock, less what the
readings are apart. -/
theorem clockAmounts_of_sameDate (hexact : two.epoch < one.epoch)
    (hdate : one.reading.date = two.reading.date) (hmicro : one.microsecond = two.microsecond)
    {seconds : Int} (hseconds : (restApart one two - (two.kept - one.kept)).natAbs = seconds) :
    clockAmounts one two = Amounts.normalize
      { hours := seconds / 3600, minutes := seconds % 3600 / 60, seconds := seconds % 60 }
      two.reading.year two.reading.month := by
  obtain ⟨hyear, hmonth, hday⟩ := Date.mk.inj hdate
  unfold microsecond at hmicro
  unfold restApart at hseconds
  subst hseconds
  simp [clockAmounts, if_pos hexact, repeatedAmounts, Reading.difference, hyear, hmonth, hday,
    hmicro]

/-- Seconds are normal in hours and minutes if they are whole minutes of less than
a day. -/
theorem normalize_seconds_iff {seconds : Int} (h : 0 ≤ seconds) (year month : Int) :
    Amounts.normalize
        { hours := seconds / 3600, minutes := seconds % 3600 / 60, seconds := seconds % 60 }
        year month = { hours := seconds / 3600, minutes := seconds % 3600 / 60 } ↔
      60 ∣ seconds ∧ seconds < 86400 := by
  constructor
  · intro hnormal
    rw [Amounts.normalize_eq, Amounts.mk.injEq] at hnormal
    dsimp only at hnormal
    omega
  · rintro ⟨hminutes, hday⟩
    rw [Amounts.normalize_clock (by omega) (by omega) (by omega), Int.emod_eq_zero_of_dvd hminutes]

/-- The amounts have less than 24 hours before a correction. -/
theorem hours_clockAmounts_lt (one two : Instant) : (clockAmounts one two).hours < 24 := by
  rw [clockAmounts, Amounts.normalize_eq]
  exact Int.emod_lt_of_pos _ (by decide)

/-- Between equal readings the start of daylight time is not counted. -/
theorem not_changeTaken_of_sameClock (hbefore : one.isDaylight = false)
    (hsame : two.epoch - one.epoch + (two.kept - one.kept) = 0) : ¬ ChangeTaken data one two := by
  intro htaken
  cases htaken with
  | stops hno => simp [hbefore] at hno
  | starts _ _ offset transition flag _ hcounted =>
    simp only [countsStep, hsame, Int.zero_tmod, Bool.and_eq_true, decide_eq_true_eq] at hcounted
    omega

theorem wholeDays_of_sameDate (hone : ConsistentIn data one) (htwo : ConsistentIn data two)
    (h : one.reading.date = two.reading.date) : wholeDays one two = 0 := by
  have hclock : one.sameClock two = true := by
    rw [sameClock, hone.zone, htwo.zone]
    exact decide_eq_true rfl
  simp [wholeDays, hclock, h]

/-! ## One reading twice -/

/-- Two instants of a zone with one reading, in order. -/
structure Repeated (data : ZoneData) (s t : Instant) : Prop where
  first : ConsistentIn data s
  second : ConsistentIn data t
  reading : s.reading = t.reading
  later : s.epoch < t.epoch

namespace Repeated

/-- The clock goes back by the time that has passed. -/
theorem change_eq (h : Repeated data s t) : t.epoch - s.epoch = s.kept - t.kept := by
  have hsmicro := h.first.micro_bounds
  have hmicro : s.microsecond = t.microsecond := congrArg Reading.microsecond h.reading
  have htotal := h.first.microTotal_eq
  rw [h.reading, h.second.microTotal_eq] at htotal
  unfold microEpoch at htotal
  omega

theorem not_sameTime (h : Repeated data s t) : ¬ s.sameTime t = true := by
  have hlater := h.later
  rw [sameTime_iff]
  omega

theorem diff_eq (h : Repeated data s t) :
    s.diff t = (correction data s t (t.kept - s.kept)).map (correctedInterval s t false) :=
  diff_eq_of_not_before h.first h.second (by rw [h.reading, before_self h.second])

theorem diff_eq_back (h : Repeated data s t) :
    t.diff s = (correction data t s (s.kept - t.kept)).map (correctedInterval t s false) :=
  diff_eq_of_not_before h.second h.first (by rw [h.reading, before_self h.second])

/-- From the first side the readings are nothing apart. -/
theorem clockAmounts_eq (h : Repeated data s t) : clockAmounts s t = {} := by
  rw [clockAmounts_of_le (Int.le_of_lt h.later)]
  exact (Reading.normalize_difference_eq_zero_iff h.first.valid h.second.valid
    (Int.le_of_eq (by rw [h.reading]))).2 h.reading

/-- From the second side they are the change of the clock apart. -/
theorem clockAmounts_eq_back (h : Repeated data s t) :
    clockAmounts t s = Amounts.normalize
      { hours := (s.kept - t.kept) / 3600, minutes := (s.kept - t.kept) % 3600 / 60,
        seconds := (s.kept - t.kept) % 60 } s.reading.year s.reading.month := by
  have hchange := h.change_eq
  have hlater := h.later
  have hnothing : restApart t s = 0 := by
    rw [restApart, h.reading]
    omega
  exact clockAmounts_of_sameDate h.later (congrArg Reading.date h.reading).symm
    (congrArg Reading.microsecond h.reading).symm (by omega)

/-- From the first side a difference without a correction is zero. -/
theorem not_separates_of_none (h : Repeated data s t)
    (hc : correction data s t (t.kept - s.kept) = .ok .none) : ¬ Separates s t := by
  rintro ⟨i, j, notes, notes', hforward, -, -, -, hzero⟩
  rw [h.diff_eq, hc] at hforward
  cases Except.ok.inj hforward
  exact h.not_sameTime (hzero.1 h.clockAmounts_eq)

theorem not_separates_of_sameFlag (h : Repeated data s t)
    (hflag : s.isDaylight = t.isDaylight) : ¬ Separates s t := by
  intro hseparates
  obtain ⟨i, j, notes, notes', hforward, hbackward, hamounts, -, -⟩ := id hseparates
  rw [h.diff_eq] at hforward
  obtain ⟨c, hc, hi⟩ := map_eq_ok.1 hforward
  rcases none_or_lastDay_of_sameFlag hflag hc with rfl | ⟨seconds, rfl⟩
  · exact h.not_separates_of_none hc hseparates
  · -- The 24 hours of the first side are a day to the second.
    have hlater := h.later
    rw [h.diff_eq_back, correction_of_sameFlag hflag.symm, if_neg (by omega)] at hbackward
    cases hi
    cases Except.ok.inj hbackward
    have hhours : 24 = (clockAmounts t s).hours := congrArg Amounts.hours hamounts
    have hbound := hours_clockAmounts_lt t s
    omega

/-- Where daylight time stops, the first side takes the change of the clock off
nothing, in whole minutes, and the second takes it as it is, in days too. -/
theorem separates_iff_of_stops (h : Repeated data s t) (hbefore : s.isDaylight = true)
    (hafter : t.isDaylight = false) :
    Separates s t ↔ 60 ∣ s.kept - t.kept ∧ s.kept - t.kept < 86400 := by
  have hchange := h.change_eq
  have hlater := h.later
  have hforward : s.diff t = .ok (correctedInterval s t false .backward) := by
    rw [h.diff_eq, correction_of_stops hbefore hafter, if_pos (by omega)]
    rfl
  have hbackward : t.diff s = .ok (correctedInterval t s false .none) := by
    have hnot : ¬ ChangeTaken data t s := not_changeTaken_of_sameClock hafter (by omega)
    rw [h.diff_eq_back, correction_of_not_changeTaken h.first hnot fun _ => by omega]
    rfl
  have htaken : takenOff (t.kept - s.kept) (clockAmounts s t) =
      { hours := (s.kept - t.kept) / 3600, minutes := (s.kept - t.kept) % 3600 / 60 } := by
    rw [h.clockAmounts_eq, ← Int.neg_sub, takenOff, changeParts_neg,
      changeParts_of_nonneg (by omega)]
    simp
  rw [← normalize_seconds_iff (by omega) s.reading.year s.reading.month, ← h.clockAmounts_eq_back,
    ← htaken]
  constructor
  · rintro ⟨i, j, notes, notes', hi, hj, hamounts, -, -⟩
    rw [hforward] at hi
    rw [hbackward] at hj
    cases Except.ok.inj hi
    cases Except.ok.inj hj
    exact hamounts.symm
  · intro hsame
    have hdate : s.reading.date = t.reading.date := congrArg Reading.date h.reading
    have hdays : wholeDays s t = wholeDays t s := by
      rw [wholeDays_of_sameDate h.first h.second hdate,
        wholeDays_of_sameDate h.second h.first hdate.symm]
    refine ⟨_, _, _, _, hforward, hbackward, hsame.symm, congrArg some hdays,
      iff_of_false (fun hzero => ?_) h.not_sameTime⟩
    have hnothing := htaken.symm.trans hzero
    have hwhole := (normalize_seconds_iff (by omega) s.reading.year s.reading.month).1
      (h.clockAmounts_eq_back.symm.trans (hsame.trans htaken))
    rw [Amounts.mk.injEq] at hnothing
    omega

/-- Two instants with one reading are told apart if daylight time stops between
them, by whole minutes and by less than a day. -/
theorem separates_iff_stops (h : Repeated data s t) :
    Separates s t ↔ s.isDaylight = true ∧ t.isDaylight = false ∧ 60 ∣ s.kept - t.kept ∧
      s.kept - t.kept < 86400 := by
  have hchange := h.change_eq
  cases hbefore : s.isDaylight <;> cases hafter : t.isDaylight
  case true.false => simp [h.separates_iff_of_stops hbefore hafter]
  case false.true =>
    have hnot : ¬ ChangeTaken data s t := not_changeTaken_of_sameClock hbefore (by omega)
    have hnone := h.not_separates_of_none
      (correction_of_not_changeTaken h.second hnot fun hflag => by simp [hbefore, hafter] at hflag)
    simp [hnone]
  all_goals
    have hnot := h.not_separates_of_sameFlag (hbefore.trans hafter.symm)
    simp [hnot]

end Repeated

/-! ## Readings in reverse -/

/-- Two instants of a zone in the order of their readings, of which the second is
the earlier one. -/
structure Reversed (data : ZoneData) (one two : Instant) : Prop where
  first : ConsistentIn data one
  second : ConsistentIn data two
  reading : one.reading.before two.reading = true
  earlier : two.epoch < one.epoch

/-- The change of the clock is taken off, and it is all that two instants of one
date are apart. -/
structure CancelsOut (data : ZoneData) (one two : Instant) : Prop where
  taken : ChangeTaken data one two
  date : one.reading.date = two.reading.date
  microsecond : one.microsecond = two.microsecond
  rest : restApart one two = (two.kept - one.kept) % 60
  short : two.kept - one.kept < 86400

namespace Reversed

theorem inReverse (h : Reversed data one two) : InReverse data one two :=
  ⟨h.first, h.second, Int.le_of_lt ((Reading.before_iff h.first.valid h.second.valid).1 h.reading),
    h.earlier⟩

/-- Amounts in reverse that have no date units left stand for the days between the
dates, and for the change of the clock less the rest. -/
theorem timeMicros_eq (h : Reversed data one two)
    (hyears : (clockAmounts one two).years = 0) (hmonths : (clockAmounts one two).months = 0)
    (hdays : (clockAmounts one two).days = 0) :
    (clockAmounts one two).timeMicros = reverseMicros one two := by
  have htotal := h.inReverse.total_eq ⟨hyears, hmonths⟩
  omega

/-- Without a correction the difference is not zero. -/
theorem clockAmounts_ne_zero (h : Reversed data one two) : clockAmounts one two ≠ {} := by
  intro hzero
  have htime := h.timeMicros_eq (congrArg Amounts.years hzero) (congrArg Amounts.months hzero)
    (congrArg Amounts.days hzero)
  have hnothing : Amounts.timeMicros {} = 0 := rfl
  have honemicro := h.first.micro_bounds
  have htwomicro := h.second.micro_bounds
  have hdays := h.inReverse.dates_and_hours_nonneg.1
  have hrest := h.inReverse.restApart_lt
  -- Nothing is negative in the sum, and the change of the clock is more than the rest.
  rw [hzero, hnothing] at htime
  unfold reverseMicros at htime
  omega

/-- A correction by the change of the clock leaves nothing if the readings are of
one date and apart by what the change has besides whole minutes. -/
theorem takenOff_eq_zero_iff (h : Reversed data one two) :
    takenOff (two.kept - one.kept) (clockAmounts one two) = {} ↔
      one.reading.date = two.reading.date ∧ one.microsecond = two.microsecond ∧
        restApart one two = (two.kept - one.kept) % 60 ∧ two.kept - one.kept < 86400 := by
  have honemicro := h.first.micro_bounds
  have htwomicro := h.second.micro_bounds
  have hchange := h.inReverse.change_pos
  have hparts := changeParts_of_nonneg (show 0 ≤ two.kept - one.kept by omega)
  constructor
  · intro hzero
    have htaken := timeMicros_takenOff (two.kept - one.kept) (clockAmounts one two)
    have htime := h.timeMicros_eq (congrArg Amounts.years hzero)
      (congrArg Amounts.months hzero) (congrArg Amounts.days hzero)
    have hnothing : Amounts.timeMicros {} = 0 := rfl
    have hhours : (clockAmounts one two).hours - (two.kept - one.kept) / 3600 = 0 := by
      rw [takenOff, hparts] at hzero
      exact congrArg Amounts.hours hzero
    have hbound := hours_clockAmounts_lt one two
    have hdays := h.inReverse.dates_and_hours_nonneg.1
    have hrest := h.inReverse.restApart_lt
    rw [hzero, hnothing, hparts, htime] at htaken
    unfold reverseMicros at htaken
    -- The change is less than a day, so there is none between the dates.
    have hdate : one.reading.dayTotal = two.reading.dayTotal := by omega
    have hmicro : one.microsecond = two.microsecond := by omega
    refine ⟨(Reading.date_eq_iff h.first.valid h.second.valid).2 hdate, hmicro, ?_, ?_⟩
    · omega
    · omega
  · rintro ⟨hdate, hmicro, hrest, hshort⟩
    have hwhole : ((restApart one two - (two.kept - one.kept)).natAbs : Int) =
        (two.kept - one.kept) - (two.kept - one.kept) % 60 := by
      omega
    rw [clockAmounts_of_sameDate h.earlier hdate hmicro hwhole,
      (normalize_seconds_iff (by omega) _ _).2 (by omega), takenOff, hparts, Amounts.mk.injEq]
    dsimp only
    omega

/-- Two instants in reverse are told apart unless the correction cancels what they
are apart. -/
theorem separates_iff_not_cancelsOut (h : Reversed data one two) :
    Separates one two ↔ ¬ CancelsOut data one two := by
  have hearlier := h.earlier
  rw [separates_iff_of_before h.first h.second h.reading]
  by_cases htaken : ChangeTaken data one two
  · obtain ⟨c, hc, happly⟩ := htaken.exists_correction
    have hzero := h.takenOff_eq_zero_iff
    constructor
    · rintro ⟨c', hc', hne⟩ ⟨-, hdate, hmicro, hrest, hshort⟩
      obtain rfl := Except.ok.inj (hc.symm.trans hc')
      exact hne ((happly _).trans (hzero.2 ⟨hdate, hmicro, hrest, hshort⟩))
    · intro hcancels
      refine ⟨c, hc, fun hnothing => hcancels ?_⟩
      obtain ⟨hdate, hmicro, hrest, hshort⟩ := hzero.1 ((happly _).symm.trans hnothing)
      exact ⟨htaken, hdate, hmicro, hrest, hshort⟩
  · have hc := correction_of_not_changeTaken h.second htaken fun _ => by omega
    exact iff_of_true ⟨.none, hc, h.clockAmounts_ne_zero⟩ fun hcancels => htaken hcancels.taken

end Reversed

/-! ## Any two instants -/

/-- What it takes to tell an instant from a later one of the same zone. -/
structure ToldApart (data : ZoneData) (s t : Instant) : Prop where
  /-- The zone has an answer where it is asked about a span of a day or more with
  one daylight flag. -/
  answered : s.reading.before t.reading = true → s.isDaylight = t.isDaylight →
    86400 ≤ t.epoch - s.epoch → ∃ period, data.periodAt (t.epoch - t.kept) = .ok period
  /-- Readings that occur twice do so because daylight time stops, by whole minutes
  and by less than a day. -/
  repeated : s.reading = t.reading → s.epoch < t.epoch →
    s.isDaylight = true ∧ t.isDaylight = false ∧ 60 ∣ s.kept - t.kept ∧ s.kept - t.kept < 86400
  /-- Where the clock goes back by more than time passes, its change is not all
  that the readings are apart. -/
  reversed : t.reading.before s.reading = true → s.epoch < t.epoch → ¬ CancelsOut data t s

theorem separates_self (h : ConsistentIn data s) : Separates s s := by
  have hdiff : s.diff s = .ok (correctedInterval s s false .none) := by
    rw [diff_eq_of_not_before h h (before_self h), correction_of_sameFlag rfl, if_neg (by omega)]
    rfl
  have hzero : clockAmounts s s = {} := by
    rw [clockAmounts_of_le (Int.le_refl _)]
    exact (Reading.normalize_difference_eq_zero_iff h.valid h.valid (Int.le_refl _)).2 rfl
  exact ⟨_, _, _, _, hdiff, hdiff, rfl, rfl, iff_of_true hzero (sameTime_iff.2 ⟨rfl, rfl⟩)⟩

/-- There is nothing to tell apart from an instant that is not later. -/
theorem toldApart_of_le (h : t.epoch ≤ s.epoch) : ToldApart data s t where
  answered _ _ hlong := by omega
  repeated _ hlater := by omega
  reversed _ hlater := by omega

theorem separates_iff_of_le (hs : ConsistentIn data s) (ht : ConsistentIn data t)
    (hle : s.microEpoch ≤ t.microEpoch) : Separates s t ↔ ToldApart data s t := by
  have hsmicro := hs.micro_bounds
  have htmicro := ht.micro_bounds
  have hforward := Reading.before_iff hs.valid ht.valid
  have hbackward := Reading.before_iff ht.valid hs.valid
  have hsame : s.reading = t.reading → s.reading.microTotal = t.reading.microTotal :=
    congrArg Reading.microTotal
  rcases Int.lt_or_eq_of_le hle with hlt | heq
  · -- Of the three conditions one applies, by the order of the readings.
    rcases Int.lt_trichotomy s.reading.microTotal t.reading.microTotal with
      hbefore | hequal | hafter
    · have hclock := hforward.2 hbefore
      rw [separates_iff_answered hs ht hclock hlt]
      exact ⟨fun h => ⟨fun _ => h, fun hreading => absurd (hsame hreading) (by omega),
        fun hback => absurd (hbackward.1 hback) (by omega)⟩, fun h => h.answered hclock⟩
    · have hreading := Reading.eq_of_microTotal hs.valid ht.valid hequal
      have hmicro : s.microsecond = t.microsecond := congrArg Reading.microsecond hreading
      have hrepeated : Repeated data s t := ⟨hs, ht, hreading, by unfold microEpoch at hlt; omega⟩
      rw [hrepeated.separates_iff_stops]
      exact ⟨fun h => ⟨fun hclock => absurd (hforward.1 hclock) (by omega), fun _ _ => h,
        fun hback => absurd (hbackward.1 hback) (by omega)⟩,
        fun h => h.repeated hreading hrepeated.later⟩
    · have hlater := (inReverse_of_microEpoch ht hs (Int.le_of_lt hafter) hlt).earlier
      have hreversed : Reversed data t s := ⟨ht, hs, hbackward.2 hafter, hlater⟩
      rw [separates_comm, hreversed.separates_iff_not_cancelsOut]
      exact ⟨fun h => ⟨fun hclock => absurd (hforward.1 hclock) (by omega),
        fun hreading => absurd (hsame hreading) (by omega), fun _ _ => h⟩,
        fun h => h.reversed hreversed.reading hlater⟩
  · obtain rfl := hs.eq_of_microEpoch ht heq
    exact iff_of_true (separates_self hs) (toldApart_of_le (Int.le_refl _))

/-- Two instants of a named zone have the same difference from either side, except
for the direction, and it is zero only if they are equal, exactly unless one of
them fails to be told from the other. -/
theorem separates_iff (ha : a.Consistent) (hb : b.Consistent) (hazone : a.zone = .named data)
    (hbzone : b.zone = .named data) :
    Separates a b ↔ ToldApart data a b ∧ ToldApart data b a := by
  have ha : ConsistentIn data a := ⟨ha, hazone⟩
  have hb : ConsistentIn data b := ⟨hb, hbzone⟩
  have hamicro := ha.micro_bounds
  have hbmicro := hb.micro_bounds
  rcases Int.le_total a.microEpoch b.microEpoch with hle | hle
  · rw [separates_iff_of_le ha hb hle, and_iff_left]
    exact toldApart_of_le (by unfold microEpoch at hle; omega)
  · rw [separates_comm, separates_iff_of_le hb ha hle, and_iff_right]
    exact toldApart_of_le (by unfold microEpoch at hle; omega)

/-- Half an hour after the clock of the zone went back. -/
def sundayHalfPastOneAgain : Instant where
  reading := ⟨2023, 11, 5, 1, 30, 0, 0⟩
  epoch := 1699165800
  kept := -18000
  isDaylight := false
  zone := .named eastern

/-- The two instants with this reading are an hour apart from either side. -/
theorem separates_sundayHalfPastOne : Separates sundayHalfPastOne sundayHalfPastOneAgain := by
  have hagain : sundayHalfPastOneAgain.Consistent :=
    ⟨(Reading.check_eq_ok_iff _).1 rfl, rfl, rfl⟩
  refine (separates_iff consistent_sundayHalfPastOne hagain rfl rfl).2
    ⟨⟨fun hclock => ?_, fun _ _ => ?_, fun hclock => ?_⟩, toldApart_of_le (by decide)⟩
  · contradiction
  · decide
  · contradiction

/-- A zone at UTC whose clock is an hour ahead in summer, where it is winter that
has the daylight flag. -/
def dublin : ZoneData :=
  .ofRule none {
    standard := 3600
    daylight := some {
      offset := 0
      start := ⟨.lastWeekday 10 0, 7200⟩
      stop := ⟨.lastWeekday 3 0, 3600⟩ } }

/-- Half an hour before the clock of that zone goes back. -/
def dublinSummer : Instant where
  reading := ⟨2023, 10, 29, 1, 30, 0, 0⟩
  epoch := 1698539400
  kept := 3600
  isDaylight := false
  zone := .named dublin

/-- Half an hour after the clock of that zone went back. -/
def dublinWinter : Instant where
  reading := ⟨2023, 10, 29, 1, 30, 0, 0⟩
  epoch := 1698543000
  kept := 0
  isDaylight := true
  zone := .named dublin

/-- From either side two instants an hour apart differ by nothing. -/
theorem not_separates_dublinFold :
    dublinSummer.Consistent ∧ dublinWinter.Consistent ∧
      dublinSummer.zone = .named dublin ∧ dublinWinter.zone = .named dublin ∧
      dublinSummer.sameTime dublinWinter = false ∧
      dublinSummer.diff dublinWinter = .ok (⟨{}, false, some 0⟩, []) ∧
      dublinWinter.diff dublinSummer = .ok (⟨{}, true, some 0⟩, [.backward (-1) 0]) ∧
      ¬ Separates dublinSummer dublinWinter := by
  have hforward : dublinSummer.diff dublinWinter = .ok (⟨{}, false, some 0⟩, []) := by
    have hamounts : clockAmounts dublinSummer dublinWinter = {} :=
      Amounts.normalize_of_nonneg (by decide) _ _
    have hdiff : dublinSummer.diff dublinWinter =
        .ok (correctedInterval dublinSummer dublinWinter false .none) :=
      diff_eq_of_correction rfl rfl rfl rfl
    rw [hdiff, correctedInterval, hamounts]
    rfl
  have hbackward : dublinWinter.diff dublinSummer =
      .ok (⟨{}, true, some 0⟩, [.backward (-1) 0]) := by
    have hamounts : clockAmounts dublinWinter dublinSummer = { hours := 1 } :=
      Amounts.normalize_of_nonneg (by decide) _ _
    have hdiff : dublinWinter.diff dublinSummer =
        .ok (correctedInterval dublinWinter dublinSummer false .backward) :=
      diff_eq_of_correction rfl rfl rfl rfl
    rw [hdiff, correctedInterval, hamounts]
    rfl
  refine ⟨⟨(Reading.check_eq_ok_iff _).1 rfl, rfl, rfl⟩,
    ⟨(Reading.check_eq_ok_iff _).1 rfl, rfl, rfl⟩, rfl, rfl, rfl,
    hforward, hbackward, ?_⟩
  rintro ⟨i, j, notes, notes', hi, -, -, -, hzero⟩
  rw [hforward] at hi
  cases Except.ok.inj hi
  exact absurd (hzero.1 rfl) (by decide)

end Instant

end CivilTime
