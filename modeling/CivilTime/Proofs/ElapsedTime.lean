import CivilTime.Proofs.DifferenceWithinZone

/-!
# Wall mode counts elapsed time exactly

In wall mode the date part of an interval moves the date, and hours and smaller
units pass as elapsed time.

* `elapse_eq` says that these units pass as one count of microseconds, whatever
  their signs, and `elapse_eq_ok_iff` where that leads: to the one consistent
  instant of the zone that lies so many microseconds later.
* `elapse_elapse` and `elapse_opposite` follow.  Counts add up, and the opposite
  count leads back.
* `dateMoved` is the instant at which the count starts, and `shiftWall_eq` cuts a
  shift into the two.
* `shift_wall_exact` is the result.
-/

namespace CivilTime

/-! ## Sums and opposites -/

namespace Amounts

/-- The sum of two amounts, unit by unit. -/
def sum (a b : Amounts) : Amounts where
  years := a.years + b.years
  months := a.months + b.months
  days := a.days + b.days
  hours := a.hours + b.hours
  minutes := a.minutes + b.minutes
  seconds := a.seconds + b.seconds
  microseconds := a.microseconds + b.microseconds

theorem timeMicros_sum (a b : Amounts) :
    (a.sum b).timeMicros = a.timeMicros + b.timeMicros := by
  simp only [sum, timeMicros, clockSeconds]
  omega

theorem timeMicros_opposite (a : Amounts) : (a.scale (-1)).timeMicros = -a.timeMicros := by
  simp only [Amounts.scale, Amounts.timeMicros, clockSeconds]
  omega

theorem isTimeOnly_iff (a : Amounts) :
    a.isTimeOnly = true ↔ a.years = 0 ∧ a.months = 0 ∧ a.days = 0 := by
  simp [isTimeOnly, and_assoc]

theorem isTimeOnly_sum {a b : Amounts} (ha : a.isTimeOnly = true) (hb : b.isTimeOnly = true) :
    (a.sum b).isTimeOnly = true := by
  rw [isTimeOnly_iff] at *
  simp [sum, ha, hb]

theorem isTimeOnly_scale (factor : Int) {a : Amounts} (h : a.isTimeOnly = true) :
    (a.scale factor).isTimeOnly = true := by
  rw [isTimeOnly_iff] at *
  simp [scale, h]

end Amounts

namespace Interval

/-- Taken against its direction, an interval has the opposite amounts. -/
theorem signed_neg (i : Interval) (factor : Int) :
    i.signed (-factor) = (i.signed factor).scale (-1) := by
  unfold Interval.signed
  cases i.inverted with
  | false => simp only [Amounts.scale, Bool.false_eq_true, if_false, Int.neg_mul, Int.one_mul]
  | true => simp only [Amounts.scale, if_true, Int.neg_mul, Int.one_mul]

theorem isTimeOnly_signed (factor : Int) {i : Interval} (h : i.amounts.isTimeOnly = true) :
    (i.signed factor).isTimeOnly = true :=
  Amounts.isTimeOnly_scale _ h

/-- The sum of two intervals: each amount with the sign of its direction. -/
def sum (i j : Interval) : Interval where
  amounts := (i.signed 1).sum (j.signed 1)
  inverted := false
  totalDays := none

theorem signed_sum (i j : Interval) : (i.sum j).signed 1 = (i.signed 1).sum (j.signed 1) := by
  simp [sum, signed, Amounts.scale]

end Interval

/-! ## Directions -/

/-- The factor with which an interval is taken in a direction. -/
def ShiftDirection.factor : ShiftDirection → Int
  | .forward => 1
  | .backward => -1

namespace Instant

variable {t u : Instant} {a b : Amounts}

/-! ## One count of microseconds -/

/-- Hours and smaller units pass as one count of microseconds. -/
theorem elapse_eq (t : Instant) (a : Amounts) :
    t.elapse a =
      atEpoch t.zone ((t.microEpoch + a.timeMicros) / 1000000)
        ((t.microEpoch + a.timeMicros) % 1000000) := by
  have hseconds : t.epoch + clockSeconds a.hours a.minutes (a.seconds + a.microseconds / 1000000) +
      (0 + (t.microsecond + a.microseconds % 1000000) / 1000000) =
      (t.microEpoch + a.timeMicros) / 1000000 := by
    simp only [microEpoch, Amounts.timeMicros, clockSeconds]
    omega
  have hmicro : (t.microsecond + a.microseconds % 1000000) % 1000000 =
      (t.microEpoch + a.timeMicros) % 1000000 := by
    simp only [microEpoch, Amounts.timeMicros, clockSeconds]
    omega
  simp only [elapse, carryMicroseconds_eq, hseconds, hmicro]

/-- Time passes to the one consistent instant of the zone that lies as many
microseconds later. -/
theorem elapse_eq_ok_iff :
    t.elapse a = .ok u ↔
      u.Consistent ∧ u.zone = t.zone ∧ u.microEpoch = t.microEpoch + a.timeMicros := by
  rw [elapse_eq, atEpoch_eq_ok_iff (by omega)]
  constructor
  · rintro ⟨hu, hzone, hepoch, hmicro⟩
    refine ⟨hu, hzone, ?_⟩
    rw [microEpoch, hepoch, hmicro]
    omega
  · rintro ⟨hu, hzone, htime⟩
    have hmicro : 0 ≤ u.microsecond ∧ u.microsecond < 1000000 := hu.valid.microsecond
    rw [microEpoch] at htime
    exact ⟨hu, hzone, by omega, by omega⟩

/-- Counts of elapsed time add up, also where the sum does not exist. -/
theorem elapse_elapse (h : t.elapse a = .ok u) (b : Amounts) :
    u.elapse b = t.elapse (a.sum b) := by
  obtain ⟨-, hzone, htime⟩ := elapse_eq_ok_iff.1 h
  rw [elapse_eq, elapse_eq, hzone, htime, Amounts.timeMicros_sum, Int.add_assoc]

/-- The opposite count leads back. -/
theorem elapse_opposite (ht : t.Consistent) (h : t.elapse a = .ok u) :
    u.elapse (a.scale (-1)) = .ok t := by
  obtain ⟨-, hzone, htime⟩ := elapse_eq_ok_iff.1 h
  refine elapse_eq_ok_iff.2 ⟨ht, hzone.symm, ?_⟩
  rw [htime, Amounts.timeMicros_opposite]
  omega

/-! ## Shifting -/

/-- The instant at which elapsed time starts to count: the instant itself, or the
one at its reading with the date moved. -/
def dateMoved (t : Instant) (a : Amounts) : Except Failure Instant :=
  if a.isTimeOnly then .ok t
  else t.atMoved (some (.amounts a.datePart)) .compatible

/-- A shift in wall mode moves the date, and then time passes. -/
theorem shiftWall_eq (t : Instant) (a : Amounts) :
    t.shiftWall a = t.dateMoved a >>= fun start => start.elapse a := by
  unfold shiftWall dateMoved
  split
  · rfl
  · rfl

theorem shift_wall_eq (t : Instant) (i : Interval) (direction : ShiftDirection) :
    t.shift (.interval i) .wall direction = t.shiftWall (i.signed direction.factor) := by
  cases direction with
  | forward => rfl
  | backward => rfl

theorem addWall_eq_elapse (t : Instant) {i : Interval} (hi : i.amounts.isTimeOnly = true) :
    t.addWall (.interval i) = t.elapse (i.signed 1) := by
  show t.shiftWall (i.signed 1) = _
  rw [shiftWall, if_pos (Interval.isTimeOnly_signed 1 hi)]

theorem subtractWall_eq_elapse (t : Instant) {i : Interval} (hi : i.amounts.isTimeOnly = true) :
    t.subtractWall (.interval i) = t.elapse ((i.signed 1).scale (-1)) := by
  rw [← Interval.signed_neg]
  show t.shiftWall (i.signed (-1)) = _
  rw [shiftWall, if_pos (Interval.isTimeOnly_signed (-1) hi)]

/-- A shift in wall mode leads to the one consistent instant of the zone that lies
as far after the instant with the date moved as the smaller units count.  Intervals
of these units alone add up, and subtracting one undoes adding it. -/
theorem shift_wall_exact (ht : t.Consistent) :
    (∀ i direction u, t.shift (.interval i) .wall direction = .ok u ↔
      ∃ start, t.dateMoved (i.signed direction.factor) = .ok start ∧
        u.Consistent ∧ u.zone = start.zone ∧
        u.microEpoch = start.microEpoch + (i.signed direction.factor).timeMicros) ∧
    (∀ i j u, i.amounts.isTimeOnly = true → j.amounts.isTimeOnly = true →
      t.addWall (.interval i) = .ok u →
      u.addWall (.interval j) = t.addWall (.interval (i.sum j)) ∧
        u.subtractWall (.interval i) = .ok t) := by
  constructor
  · intro i direction u
    simp only [shift_wall_eq, shiftWall_eq, bind_eq_ok, elapse_eq_ok_iff]
  · intro i j u hi hj hu
    have hsum : (i.sum j).amounts.isTimeOnly = true :=
      Amounts.isTimeOnly_sum (Interval.isTimeOnly_signed 1 hi) (Interval.isTimeOnly_signed 1 hj)
    rw [addWall_eq_elapse t hi] at hu
    constructor
    · rw [addWall_eq_elapse u hj, addWall_eq_elapse t hsum, Interval.signed_sum]
      exact elapse_elapse hu (j.signed 1)
    · rw [subtractWall_eq_elapse u hi]
      exact elapse_opposite ht hu

/-- An hour less a quarter of a second. -/
def scantHour : Interval where
  amounts := { hours := 1, microseconds := -250000 }
  inverted := false
  totalDays := none

/-- More than an hour and a half, backward. -/
def hourAndHalfBack : Interval where
  amounts := { minutes := 90, seconds := -1, microseconds := 1500000 }
  inverted := true
  totalDays := none

/-- The second time that the clock of the zone shows this reading. -/
def sundayBeforeHalfPastOneAgain : Instant where
  reading := ⟨2023, 11, 5, 1, 29, 59, 750000⟩
  epoch := 1699165799
  kept := -18000
  isDaylight := false
  zone := .named eastern

/-- The scant hour leads into the hour that occurs twice, and the way back and on
starts from there. -/
theorem shift_wall_exact_sundayHalfPastOne :
    sundayHalfPastOne.addWall (.interval scantHour) = .ok sundayBeforeHalfPastOneAgain ∧
      sundayBeforeHalfPastOneAgain.addWall (.interval hourAndHalfBack) =
        sundayHalfPastOne.addWall (.interval (scantHour.sum hourAndHalfBack)) ∧
      sundayBeforeHalfPastOneAgain.subtractWall (.interval scantHour) = .ok sundayHalfPastOne := by
  have hsum : sundayHalfPastOne.addWall (.interval scantHour) =
      .ok sundayBeforeHalfPastOneAgain := rfl
  exact ⟨hsum, (shift_wall_exact consistent_sundayHalfPastOne).2 scantHour hourAndHalfBack _
    (by decide) (by decide) hsum⟩

end Instant

end CivilTime
