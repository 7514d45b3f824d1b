import CivilTime.Instant.Difference
import CivilTime.Proofs.ConsistentInstant
import CivilTime.Proofs.ReadingOrder

/-!
# Differences within a named zone

The difference of two instants of one named zone is that of their readings, put
in order by the readings, and then corrected for a transition.

* `ConsistentIn` is an instant of a named zone.  Its reading stands for its exact
  time and its offset (`ConsistentIn.microTotal_eq`), so the order of two
  readings is an inequality between these (`ConsistentIn.before_iff`).
* `clockAmounts` are the amounts before a correction, and `sameZone_eq` takes the
  difference apart into them, the correction and the direction.
* `correction_of_stops`, `correction_of_starts` and `correction_of_sameFlag` say
  when each correction applies, by the daylight flags of the two instants.
* `takenOff` is what the corrections by a change of the clock do to amounts, and
  `ChangeTaken` says when one of these applies.
-/

namespace CivilTime

namespace Instant

variable {data : ZoneData} {a b one two s t : Instant}

/-! ## Instants of a named zone -/

/-- A consistent instant in a named zone. -/
structure ConsistentIn (data : ZoneData) (t : Instant) : Prop extends Consistent t where
  zone : t.zone = .named data

namespace ConsistentIn

theorem offsetAt (h : ConsistentIn data t) :
    data.offsetAt t.epoch = .ok (t.kept, t.isDaylight) := by
  have hprescribed := h.prescribed
  rw [h.zone] at hprescribed
  exact hprescribed

theorem micro_bounds (h : ConsistentIn data t) :
    0 ≤ t.microsecond ∧ t.microsecond < 1000000 :=
  h.valid.microsecond

/-- The reading shows the exact time at the offset that the instant keeps. -/
theorem localSeconds_eq (h : ConsistentIn data t) :
    t.reading.localSeconds = t.epoch + t.kept := by
  have hshows := h.shows
  rw [offset, h.zone, Zone.fullOffset] at hshows
  exact hshows

/-- The reading stands for the exact time and the offset. -/
theorem microTotal_eq (h : ConsistentIn data t) :
    t.reading.microTotal = t.microEpoch + t.kept * 1000000 := by
  rw [h.toConsistent.microTotal_eq, offset, h.zone, Zone.fullOffset]

/-- At one exact time a zone has one offset and one daylight flag. -/
theorem kept_eq (hs : ConsistentIn data s) (ht : ConsistentIn data t) (h : s.epoch = t.epoch) :
    s.kept = t.kept ∧ s.isDaylight = t.isDaylight := by
  have hoffset := hs.offsetAt
  rw [h, ht.offsetAt] at hoffset
  obtain ⟨hkept, hdaylight⟩ := Prod.mk.inj (Except.ok.inj hoffset)
  exact ⟨hkept.symm, hdaylight.symm⟩

/-- A zone has one instant at an exact time. -/
theorem eq_of_microEpoch (hs : ConsistentIn data s) (ht : ConsistentIn data t)
    (h : s.microEpoch = t.microEpoch) : s = t := by
  have hsmicro := hs.micro_bounds
  have htmicro := ht.micro_bounds
  have hepoch : s.epoch = t.epoch := by
    unfold microEpoch at h
    omega
  obtain ⟨hkept, hdaylight⟩ := hs.kept_eq ht hepoch
  have hreading : s.reading = t.reading := by
    refine Reading.eq_of_microTotal hs.valid ht.valid ?_
    rw [hs.microTotal_eq, ht.microTotal_eq, h, hkept]
  have hzone : s.zone = t.zone := hs.zone.trans ht.zone.symm
  cases s
  cases t
  rw [mk.injEq]
  exact ⟨hreading, hepoch, hkept, hdaylight, hzone⟩

theorem before_iff (hs : ConsistentIn data s) (ht : ConsistentIn data t) :
    s.reading.before t.reading = true ↔
      s.microEpoch + s.kept * 1000000 < t.microEpoch + t.kept * 1000000 := by
  rw [Reading.before_iff hs.valid ht.valid, hs.microTotal_eq, ht.microTotal_eq]

theorem before_eq_false_iff (hs : ConsistentIn data s) (ht : ConsistentIn data t) :
    s.reading.before t.reading = false ↔
      t.microEpoch + t.kept * 1000000 ≤ s.microEpoch + s.kept * 1000000 := by
  rw [← Bool.not_eq_true, before_iff hs ht, Int.not_lt]

theorem earlierThan_iff (hs : ConsistentIn data s) (ht : ConsistentIn data t) :
    s.earlierThan t = true ↔ s.microEpoch < t.microEpoch :=
  hs.toConsistent.earlierThan_iff ht.toConsistent

theorem earlierThan_eq_false_iff (hs : ConsistentIn data s) (ht : ConsistentIn data t) :
    s.earlierThan t = false ↔ t.microEpoch ≤ s.microEpoch := by
  rw [← Bool.not_eq_true, earlierThan_iff hs ht, Int.not_lt]

end ConsistentIn

/-! ## The parts of the difference -/

/-- What two readings in order are apart, before any correction. -/
def clockAmounts (one two : Instant) : Amounts :=
  let raw := one.reading.difference two.reading
  let amounts := if two.epoch < one.epoch then repeatedAmounts raw (two.kept - one.kept) else raw
  amounts.normalize two.reading.year two.reading.month

/-- The interval between two instants in the order of their readings, with a
correction applied, and what it reports. -/
def correctedInterval (one two : Instant) (exchanged : Bool) (c : Correction) :
    Interval × List Note :=
  let corrected := c.apply (two.kept - one.kept) (clockAmounts one two)
  ({ amounts := corrected.1, inverted := exchanged != decide (two.epoch < one.epoch),
     totalDays := some (wholeDays one two) }, corrected.2)

theorem diff_named (ha : a.zone = .named data) (hb : b.zone = .named data) :
    a.diff b = sameZone data a b := by
  rw [diff, ha, hb]
  exact if_pos rfl

theorem inOrder_named (ha : a.zone = .named data) (hb : b.zone = .named data) :
    a.inOrder b = if b.reading.before a.reading then (b, a, true) else (a, b, false) := by
  have hsame : a.zone.sameNamed b.zone = true := by
    rw [ha, hb]
    exact decide_eq_true rfl
  rw [inOrder, hsame]
  rfl

/-- The difference is the amounts between the readings, with a correction. -/
theorem sameZone_eq {exchanged : Bool} (h : a.inOrder b = (one, two, exchanged)) :
    sameZone data a b =
      (correction data one two (two.kept - one.kept)).map
        (correctedInterval one two exchanged) := by
  have hamounts : (if decide (two.epoch < one.epoch) = true
      then repeatedAmounts (one.reading.difference two.reading) (two.kept - one.kept)
      else one.reading.difference two.reading).normalize two.reading.year two.reading.month =
      clockAmounts one two := by
    simp only [clockAmounts, decide_eq_true_eq]
  rw [sameZone, h]
  dsimp only
  rw [hamounts]
  rfl

theorem diff_eq_of_correction {exchanged : Bool} {c : Correction} (ha : a.zone = .named data)
    (hb : b.zone = .named data) (h : a.inOrder b = (one, two, exchanged))
    (hc : correction data one two (two.kept - one.kept) = .ok c) :
    a.diff b = .ok (correctedInterval one two exchanged c) := by
  rw [diff_named ha hb, sameZone_eq h, hc]
  rfl

/-- In the order of the readings the difference is not exchanged. -/
theorem diff_eq_of_not_before (ha : ConsistentIn data a) (hb : ConsistentIn data b)
    (h : b.reading.before a.reading = false) :
    a.diff b = (correction data a b (b.kept - a.kept)).map (correctedInterval a b false) := by
  have horder : a.inOrder b = (a, b, false) := by
    rw [inOrder_named ha.zone hb.zone, h]
    rfl
  rw [diff_named ha.zone hb.zone, sameZone_eq horder]

/-- Against the order of the readings the difference is exchanged. -/
theorem diff_eq_of_before (ha : ConsistentIn data a) (hb : ConsistentIn data b)
    (h : b.reading.before a.reading = true) :
    a.diff b = (correction data b a (a.kept - b.kept)).map (correctedInterval b a true) := by
  have horder : a.inOrder b = (b, a, true) := by
    rw [inOrder_named ha.zone hb.zone, h]
    rfl
  rw [diff_named ha.zone hb.zone, sameZone_eq horder]

/-! ## When a correction applies -/

/-- The correction from standard to daylight time, given the period around the
second instant. -/
def forwardCorrection (one two : Instant) (change : Int) (period : Option OffsetPeriod) :
    Correction :=
  match period with
  | some { since := some transition, .. } =>
    if countsStep one two transition change then .forward else .none
  | _ => .none

/-- The step of the clock is counted at the transition before the second instant. -/
def StepCounted (one two : Instant) (change : Int) (period : Option OffsetPeriod) : Prop :=
  ∃ offset transition isDaylight, period = some ⟨offset, some transition, isDaylight⟩ ∧
    countsStep one two transition change = true

theorem forwardCorrection_cases (one two : Instant) (change : Int) (period : Option OffsetPeriod) :
    StepCounted one two change period ∧ forwardCorrection one two change period = .forward ∨
      ¬ StepCounted one two change period ∧ forwardCorrection one two change period = .none := by
  unfold forwardCorrection
  split
  · next offset transition isDaylight =>
    split
    · next hcounted => exact Or.inl ⟨⟨offset, transition, isDaylight, rfl, hcounted⟩, rfl⟩
    · next hnot =>
      refine Or.inr ⟨?_, rfl⟩
      rintro ⟨_, _, _, hperiod, hcounted⟩
      cases hperiod
      exact hnot hcounted
  · next hother =>
    refine Or.inr ⟨?_, rfl⟩
    rintro ⟨offset, transition, isDaylight, hperiod, -⟩
    exact hother _ _ _ hperiod

/-- The correction where the flags agree and the instants are a day or more
apart, given a period soon after the second instant. -/
def lastDayCorrection (one two : Instant) (period : Option OffsetPeriod) : Correction :=
  match period with
  | some { offset, since := some transition, .. } =>
    if transition - (one.kept - offset) ≤ two.epoch ∧ two.epoch < transition then
      .lastDay (transition - two.epoch)
    else .none
  | _ => .none

/-- The clock stops to show daylight time: the span decides. -/
theorem correction_of_stops (hone : one.isDaylight = true) (htwo : two.isDaylight = false)
    (change : Int) :
    correction data one two change =
      .ok (if two.epoch - one.epoch + change < 86400 then .backward else .none) := by
  rw [correction, hone, htwo, if_pos (by decide), apply_ite Except.ok]

/-- The clock starts to show daylight time: the last transition decides. -/
theorem correction_of_starts (hone : one.isDaylight = false) (htwo : two.isDaylight = true)
    (change : Int) :
    correction data one two change =
      (data.periodAt two.epoch).map (forwardCorrection one two change) := by
  rw [correction, hone, htwo, if_neg (by decide), if_pos (by decide)]
  cases data.periodAt two.epoch with
  | error failure => rfl
  | ok period =>
    match period with
    | none => rfl
    | some ⟨_, none, _⟩ => rfl
    | some ⟨_, some transition, _⟩ => exact (apply_ite Except.ok _ _ _).symm

/-- The flags agree: only spans of a day or more are looked at. -/
theorem correction_of_sameFlag (h : one.isDaylight = two.isDaylight) (change : Int) :
    correction data one two change =
      if 86400 ≤ two.epoch - one.epoch then
        (data.periodAt (two.epoch - two.kept)).map (lastDayCorrection one two)
      else .ok .none := by
  rw [correction, h, if_neg (by simp), if_neg (by simp)]
  congr 1
  cases data.periodAt (two.epoch - two.kept) with
  | error failure => rfl
  | ok period =>
    match period with
    | none => rfl
    | some ⟨_, none, _⟩ => rfl
    | some ⟨_, some transition, _⟩ => exact (apply_ite Except.ok _ _ _).symm

/-- The second instant comes before a transition by no more than the offset
changes there.  The zone is asked for the transition some time later, or earlier
for offsets ahead of UTC. -/
def EndsBefore (one two : Instant) (period : Option OffsetPeriod) : Prop :=
  ∃ offset transition isDaylight, period = some ⟨offset, some transition, isDaylight⟩ ∧
    transition - (one.kept - offset) ≤ two.epoch ∧ two.epoch < transition

theorem lastDayCorrection_cases (one two : Instant) (period : Option OffsetPeriod) :
    EndsBefore one two period ∧ (∃ seconds, lastDayCorrection one two period = .lastDay seconds) ∨
      ¬ EndsBefore one two period ∧ lastDayCorrection one two period = .none := by
  unfold lastDayCorrection
  split
  · next offset transition isDaylight =>
    split
    · next hends => exact Or.inl ⟨⟨offset, transition, isDaylight, rfl, hends⟩, _, rfl⟩
    · next hnot =>
      refine Or.inr ⟨?_, rfl⟩
      rintro ⟨_, _, _, hperiod, hends⟩
      cases hperiod
      exact hnot hends
  · next hother =>
    refine Or.inr ⟨?_, rfl⟩
    rintro ⟨offset, transition, isDaylight, hperiod, -⟩
    exact hother _ _ _ hperiod

/-- Where the flags agree, the change of the clock is not taken off. -/
theorem none_or_lastDay_of_sameFlag (h : one.isDaylight = two.isDaylight) {change : Int}
    {c : Correction} (hc : correction data one two change = .ok c) :
    c = .none ∨ ∃ seconds, c = .lastDay seconds := by
  rw [correction_of_sameFlag h] at hc
  split at hc
  · obtain ⟨period, -, rfl⟩ := map_eq_ok.1 hc
    rcases lastDayCorrection_cases one two period with ⟨-, hlast⟩ | ⟨-, hnone⟩
    · exact Or.inr hlast
    · exact Or.inl hnone
  · exact Or.inl (Except.ok.inj hc).symm

/-- A zone that has an offset at an exact time also answers for the period
around it. -/
theorem exists_periodAt_of_offsetAt {epoch : Int} {found : Int × Bool}
    (h : data.offsetAt epoch = .ok found) : ∃ period, data.periodAt epoch = .ok period := by
  unfold ZoneData.offsetAt at h
  unfold ZoneData.periodAt
  cases hfound : firstAfter ExactEntry.since data.exactTable epoch with
  | some index => exact ⟨_, rfl⟩
  | none =>
    rw [hfound] at h
    dsimp only at h ⊢
    split at h
    · next rule hrule =>
      obtain ⟨period, hperiod, -⟩ := bind_eq_ok.1 h
      rw [hrule]
      exact ⟨_, bind_eq_ok.2 ⟨period, hperiod, rfl⟩⟩
    · next hrule =>
      rw [hrule]
      exact ⟨_, rfl⟩

/-! ## What a correction does -/

/-- Amounts with a change of the clock taken off, in whole hours and minutes. -/
def takenOff (change : Int) (a : Amounts) : Amounts :=
  { a with
    hours := a.hours - (changeParts change).1
    minutes := a.minutes - (changeParts change).2 }

/-- The change of the clock is taken off the difference of two instants. -/
inductive ChangeTaken (data : ZoneData) (one two : Instant) : Prop
  | stops (hbefore : one.isDaylight = true) (hafter : two.isDaylight = false)
      (hshort : two.epoch + two.kept - (one.epoch + one.kept) < 86400)
  | starts (hbefore : one.isDaylight = false) (hafter : two.isDaylight = true)
      (offset transition : Int) (flag : Bool)
      (hperiod : data.periodAt two.epoch = .ok (some ⟨offset, some transition, flag⟩))
      (hcounted : countsStep one two transition (two.kept - one.kept) = true)

theorem ChangeTaken.flag_ne (h : ChangeTaken data one two) :
    one.isDaylight ≠ two.isDaylight := by
  cases h with
  | stops hbefore hafter => simp [hbefore, hafter]
  | starts hbefore hafter => simp [hbefore, hafter]

theorem ChangeTaken.correction_eq (h : ChangeTaken data one two) :
    correction data one two (two.kept - one.kept) = .ok .backward ∨
      correction data one two (two.kept - one.kept) = .ok .forward := by
  cases h with
  | stops hbefore hafter hshort =>
    left
    rw [correction_of_stops hbefore hafter, if_pos (by omega)]
  | starts hbefore hafter offset transition flag hperiod hcounted =>
    right
    rw [correction_of_starts hbefore hafter, hperiod]
    exact congrArg Except.ok (if_pos hcounted)

theorem ChangeTaken.exists_correction (h : ChangeTaken data one two) :
    ∃ c, correction data one two (two.kept - one.kept) = .ok c ∧
      ∀ x, (c.apply (two.kept - one.kept) x).1 = takenOff (two.kept - one.kept) x := by
  rcases h.correction_eq with hc | hc
  · exact ⟨.backward, hc, fun x => rfl⟩
  · exact ⟨.forward, hc, fun x => rfl⟩

theorem correction_of_not_changeTaken (htwo : ConsistentIn data two)
    (h : ¬ ChangeTaken data one two)
    (hshort : one.isDaylight = two.isDaylight → two.epoch - one.epoch < 86400) :
    correction data one two (two.kept - one.kept) = .ok .none := by
  cases hbefore : one.isDaylight <;> cases hafter : two.isDaylight
  case true.false =>
    rw [correction_of_stops hbefore hafter, if_neg]
    exact fun hday => h (.stops hbefore hafter (by omega))
  case false.true =>
    obtain ⟨period, hperiod⟩ := exists_periodAt_of_offsetAt htwo.offsetAt
    rw [correction_of_starts hbefore hafter, hperiod, Except.map]
    rcases forwardCorrection_cases one two (two.kept - one.kept) period with
      ⟨⟨offset, transition, flag, rfl, hcounted⟩, -⟩ | ⟨-, hnone⟩
    · exact absurd (.starts hbefore hafter offset transition flag hperiod hcounted) h
    · rw [hnone]
  all_goals
    have hflag := hbefore.trans hafter.symm
    have hday := hshort hflag
    rw [correction_of_sameFlag hflag, if_neg (by omega)]

theorem changeParts_of_nonneg {change : Int} (h : 0 ≤ change) :
    changeParts change = (change / 3600, change % 3600 / 60) := by
  have hrest := Int.emod_nonneg change (show (3600 : Int) ≠ 0 by decide)
  simp only [changeParts, towardZero, Int.tdiv_eq_ediv_of_nonneg h,
    Int.tmod_eq_emod_of_nonneg h, Int.tdiv_eq_ediv_of_nonneg hrest]

theorem changeParts_neg (change : Int) :
    changeParts (-change) = (-(changeParts change).1, -(changeParts change).2) := by
  simp only [changeParts, towardZero, Int.neg_tdiv, Int.neg_tmod]

/-- A change by whole minutes is taken off whole. -/
theorem changeParts_whole {change : Int} (h : 60 ∣ change) :
    (changeParts change).1 * 3600 + (changeParts change).2 * 60 = change := by
  rcases Int.le_total 0 change with hnonneg | hneg
  · rw [changeParts_of_nonneg hnonneg]
    dsimp only
    omega
  · rw [← Int.neg_neg change, changeParts_neg, changeParts_of_nonneg (by omega)]
    dsimp only
    omega

/-- What is taken off is never more than the change. -/
theorem changeParts_le (change : Int) :
    (changeParts change).1 * 3600 + (changeParts change).2 * 60 ≤ max change 0 := by
  rcases Int.le_total 0 change with hnonneg | hneg
  · rw [changeParts_of_nonneg hnonneg]
    dsimp only
    omega
  · rw [← Int.neg_neg change, changeParts_neg, changeParts_of_nonneg (by omega)]
    dsimp only
    omega

theorem timeMicros_takenOff (change : Int) (a : Amounts) :
    (takenOff change a).timeMicros =
      a.timeMicros -
        ((changeParts change).1 * 3600 + (changeParts change).2 * 60) * 1000000 := by
  simp only [takenOff, Amounts.timeMicros, clockSeconds]
  omega

/-- Instants in the order of both their readings and their exact times have the
normal difference of their readings. -/
theorem clockAmounts_of_le (h : one.epoch ≤ two.epoch) :
    clockAmounts one two =
      (one.reading.difference two.reading).normalize two.reading.year two.reading.month := by
  rw [clockAmounts, if_neg (by omega)]

/-! ## An example -/

/-- A zone five hours behind, and four from the second Sunday of March to the
first of November. -/
def eastern : ZoneData :=
  .ofRule none {
    standard := -18000
    daylight := some {
      offset := -14400
      start := ⟨.nthWeekday 3 2 0, 7200⟩
      stop := ⟨.nthWeekday 11 1 0, 7200⟩ } }

/-- Half an hour before the clock of the zone goes back. -/
def sundayHalfPastOne : Instant where
  reading := ⟨2023, 11, 5, 1, 30, 0, 0⟩
  epoch := 1699162200
  kept := -14400
  isDaylight := true
  zone := .named eastern

theorem consistent_sundayHalfPastOne : sundayHalfPastOne.Consistent :=
  ⟨(Reading.check_eq_ok_iff _).1 rfl, rfl, rfl⟩

end Instant

end CivilTime
