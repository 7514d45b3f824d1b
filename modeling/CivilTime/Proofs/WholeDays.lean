import CivilTime.Proofs.DifferenceDefined
import CivilTime.Proofs.ShiftModes

/-!
# The whole days of a difference

Beside its amounts a difference counts whole days, and it does so in a computation of its own.

* On one clock the dates are counted, and the last day is left out while its time of day has not
  come round.  `OneClock` spells out when two instants are read on one clock.
* `wholeDays_of_oneClock` says that this is the span between the readings, divided by the length
  of a day.  `Reading.exists_normalize_plus_datePart` is about the amounts: their years, months
  and days lead as many days on.
* `exists_diff_iff_of_oneClock` says which instants on one clock have a difference, and
  `totalDays_clock` puts that together.

On different clocks the exact times are counted instead.
-/

namespace CivilTime

namespace Reading

variable {r s : Reading}

/-- A valid reading stands for the days of its date and its time of day. -/
theorem microTotal_eq_date (h : r.Valid) :
    r.microTotal = r.date.dayNumber * 86400000000 + r.dayMicroseconds := by
  rw [microTotal_of_valid h]
  unfold localSeconds dayMicroseconds
  omega

/-- The years, months and days of the normal difference, added to the earlier reading, lead to a
date as many days later as there are whole days between the readings. -/
theorem exists_normalize_plus_datePart (hr : r.Valid) (hs : s.Valid)
    (h : r.microTotal ≤ s.microTotal) :
    ∃ moved, (r.plus ((r.difference s).normalize s.year s.month).datePart).normalize = .ok moved ∧
      moved.date.dayNumber - r.date.dayNumber = (s.microTotal - r.microTotal) / 86400000000 := by
  obtain ⟨hyear, -, htotal⟩ := normalize_eq_ok_iff.1 (normalize_plus_difference hr hs h)
  have htime := (r.difference s).timeMicros_normalize_bounds s.year s.month
  generalize (r.difference s).normalize s.year s.month = a at *
  rw [microTotal_plus_datePart] at htotal
  -- The sum with the date part stands whole days after the earlier reading.
  have hmoved := microTotal_plus r a.datePart
  generalize firstDay (monthIndex r.year r.month + 12 * a.datePart.years + a.datePart.months) -
    firstDay (monthIndex r.year r.month) + a.datePart.days = days at hmoved
  have hnone : a.datePart.timeMicros = 0 := rfl
  have hrday := dayNumber_eq_div hr
  have hsday := dayNumber_eq_div hs
  have hvalid : (Date.ofDayNumber (r.date.dayNumber + days)).Valid :=
    Date.valid_ofDayNumber_of_between hr.date hs.date (by omega) (by omega)
  have hday : (Date.ofDayNumber (r.date.dayNumber + days)).dayNumber =
      (r.plus a.datePart).microTotal / 86400000000 := by
    rw [Date.dayNumber_ofDayNumber]
    omega
  obtain ⟨moved, hnormal⟩ : ∃ moved, (r.plus a.datePart).normalize = .ok moved :=
    exists_normalize hyear hvalid hday
  obtain ⟨-, hmovedValid, hmovedTotal⟩ := valid_of_normalize hnormal
  refine ⟨moved, hnormal, ?_⟩
  rw [dayNumber_eq_div hmovedValid, hmovedTotal]
  omega

end Reading

namespace Instant

variable {a b one two : Instant} {i : Interval} {notes : List Note} {exchanged : Bool}

/-- The whole days of a difference are those between the two instants in order. -/
theorem totalDays_of_diff (horder : a.inOrder b = (one, two, exchanged))
    (h : a.diff b = .ok (i, notes)) : i.totalDays = some (wholeDays one two) := by
  cases hzones : a.zone.sameNamed b.zone with
  | false =>
    rw [diff_eq hzones] at h
    obtain ⟨j, hj, h⟩ := bind_eq_ok.1 h
    obtain ⟨rfl, -⟩ := Prod.mk.inj (pure_eq_ok.1 h)
    rw [acrossZones, horder] at hj
    obtain ⟨zone, -, hj⟩ := bind_eq_ok.1 hj
    obtain ⟨two', -, hj⟩ := bind_eq_ok.1 hj
    obtain rfl := pure_eq_ok.1 hj
    rfl
  | true =>
    obtain ⟨data, hazone, hbzone⟩ := exists_named_of_sameNamed hzones
    rw [diff_named hazone hbzone, sameZone_eq horder] at h
    obtain ⟨c, -, hc⟩ := map_eq_ok.1 h
    obtain ⟨rfl, -⟩ := Prod.mk.inj hc
    rfl

/-- So they are counted from one instant to the other, or back. -/
theorem totalDays_cases (h : a.diff b = .ok (i, notes)) :
    i.totalDays = some (wholeDays a b) ∨ i.totalDays = some (wholeDays b a) := by
  obtain ⟨one, two, exchanged, horder⟩ :
      ∃ one two exchanged, a.inOrder b = (one, two, exchanged) := ⟨_, _, _, rfl⟩
  rw [totalDays_of_diff horder h]
  rcases inOrder_cases horder with ⟨rfl, rfl⟩ | ⟨rfl, rfl⟩
  · exact Or.inl rfl
  · exact Or.inr rfl

/-! ## One clock -/

/-- Two instants are read on one clock: that of a named zone, or clocks of one other kind at the
same offset. -/
inductive OneClock (a b : Instant) : Prop
  | named (data : ZoneData) (hfirst : a.zone = .named data) (hsecond : b.zone = .named data)
  | fixed (x y : ClockOffset) (hfirst : a.zone = .fixed x) (hsecond : b.zone = .fixed y)
    (hoffset : a.offset = b.offset)
  | abbreviation (name name' : String) (x y : ClockOffset) (flag flag' : Bool)
    (hfirst : a.zone = .abbreviation name x flag) (hsecond : b.zone = .abbreviation name' y flag')
    (hoffset : a.offset = b.offset)

theorem sameClock_iff : a.sameClock b = true ↔ OneClock a b := by
  unfold sameClock
  constructor
  · intro h
    split at h
    · next x y ha hb =>
      obtain rfl := of_decide_eq_true h
      exact .named x ha hb
    · next x y ha hb => exact .fixed x y ha hb (of_decide_eq_true h)
    · next name x flag name' y flag' ha hb =>
      exact .abbreviation name name' x y flag flag' ha hb (of_decide_eq_true h)
    · contradiction
  · intro h
    cases h with
    | named data ha hb => simp [ha, hb]
    | fixed x y ha hb hoffset => simp [ha, hb, hoffset]
    | abbreviation name name' x y flag flag' ha hb hoffset => simp [ha, hb, hoffset]

namespace OneClock

theorem symm (h : OneClock a b) : OneClock b a := by
  cases h with
  | named data ha hb => exact .named data hb ha
  | fixed x y ha hb hoffset => exact .fixed y x hb ha hoffset.symm
  | abbreviation name name' x y flag flag' ha hb hoffset =>
    exact .abbreviation name' name y x flag' flag hb ha hoffset.symm

/-- One clock is that of a named zone, or it stands still at one offset. -/
theorem named_or_offset (h : OneClock a b) :
    (∃ data, a.zone = .named data ∧ b.zone = .named data) ∨
      (∀ data, a.zone ≠ .named data) ∧ (∀ data, b.zone ≠ .named data) ∧ a.offset = b.offset := by
  cases h with
  | named data ha hb => exact Or.inl ⟨data, ha, hb⟩
  | fixed x y ha hb hoffset => exact Or.inr ⟨by simp [ha], by simp [hb], hoffset⟩
  | abbreviation name name' x y flag flag' ha hb hoffset =>
    exact Or.inr ⟨by simp [ha], by simp [hb], hoffset⟩

/-- At one exact time one clock shows one reading. -/
theorem microTotal_eq (h : OneClock a b) (ha : a.Consistent) (hb : b.Consistent)
    (hsame : a.microEpoch = b.microEpoch) : a.reading.microTotal = b.reading.microTotal := by
  rcases h.named_or_offset with ⟨data, hazone, hbzone⟩ | ⟨-, -, hoffset⟩
  · have ha : ConsistentIn data a := ⟨ha, hazone⟩
    have hb : ConsistentIn data b := ⟨hb, hbzone⟩
    rw [ha.eq_of_microEpoch hb hsame]
  · rw [ha.microTotal_eq, hb.microTotal_eq, hsame, hoffset]

end OneClock

/-- The readings do not come in the reverse of the order of the exact times. -/
structure InAgreement (a b : Instant) : Prop where
  forward : a.earlierThan b = true → b.reading.before a.reading = false
  backward : b.earlierThan a = true → a.reading.before b.reading = false

theorem InAgreement.symm (h : InAgreement a b) : InAgreement b a :=
  ⟨h.backward, h.forward⟩

/-- The microseconds between the readings of two instants. -/
def clockSpan (a b : Instant) : Int :=
  ((a.reading.localSeconds * 1000000 + a.microsecond) -
    (b.reading.localSeconds * 1000000 + b.microsecond)).natAbs

theorem clockSpan_eq (ha : a.Consistent) (hb : b.Consistent) :
    clockSpan a b = (a.reading.microTotal - b.reading.microTotal).natAbs := by
  rw [Reading.microTotal_of_valid ha.valid, Reading.microTotal_of_valid hb.valid]
  rfl

theorem clockSpan_comm (a b : Instant) : clockSpan a b = clockSpan b a := by
  unfold clockSpan
  omega

/-- On one clock, the earlier instant has the earlier reading, unless the two contradict each
other. -/
theorem microTotal_order (ha : a.Consistent) (hb : b.Consistent) (hclock : OneClock a b)
    (hagree : InAgreement a b) :
    a.earlierThan b = true ∧ a.reading.microTotal ≤ b.reading.microTotal ∨
      a.earlierThan b = false ∧ b.reading.microTotal ≤ a.reading.microTotal := by
  cases hforward : a.earlierThan b with
  | true =>
    have hreadings := (Reading.before_eq_false_iff hb.valid ha.valid).1 (hagree.forward hforward)
    exact Or.inl ⟨rfl, hreadings⟩
  | false =>
    refine Or.inr ⟨rfl, ?_⟩
    cases hbackward : b.earlierThan a with
    | true => exact (Reading.before_eq_false_iff ha.valid hb.valid).1 (hagree.backward hbackward)
    | false =>
      -- Neither is earlier, so that both have the same reading.
      rw [← Bool.not_eq_true, ha.earlierThan_iff hb] at hforward
      rw [← Bool.not_eq_true, hb.earlierThan_iff ha] at hbackward
      have hsame := hclock.microTotal_eq ha hb (by omega)
      omega

/-- On one clock the whole days are those between the readings. -/
theorem wholeDays_of_oneClock (ha : a.Consistent) (hb : b.Consistent) (hclock : OneClock a b)
    (hagree : InAgreement a b) : wholeDays a b = clockSpan a b / 86400000000 := by
  have hatime := Reading.dayMicroseconds_bounds ha.valid
  have hbtime := Reading.dayMicroseconds_bounds hb.valid
  have horder := microTotal_order ha hb hclock hagree
  rw [Reading.microTotal_eq_date ha.valid, Reading.microTotal_eq_date hb.valid] at horder
  rw [clockSpan_eq ha hb, Reading.microTotal_eq_date ha.valid, Reading.microTotal_eq_date hb.valid,
    wholeDays, if_pos (sameClock_iff.2 hclock)]
  rcases horder with ⟨hearlier, hle⟩ | ⟨hearlier, hle⟩
  · simp only [hearlier, if_true]
    split <;> omega
  · simp only [hearlier, Bool.false_eq_true, if_false]
    split <;> omega

theorem sameNamed_of_not_named (h : ∀ data, a.zone ≠ .named data) :
    a.zone.sameNamed b.zone = false := by
  rw [← Bool.not_eq_true]
  intro hsame
  obtain ⟨data, hzone, -⟩ := exists_named_of_sameNamed hsame
  exact h data hzone

/-- On a clock that stands still, the difference is that of the readings. -/
theorem acrossZones_of_offset (hone : one.Consistent) (htwo : two.Consistent)
    (hnamed : ∀ data, one.zone ≠ .named data) (hoffset : one.offset = two.offset)
    (horder : a.inOrder b = (one, two, exchanged)) :
    acrossZones a b = .ok {
      amounts := (one.reading.difference two.reading).normalize two.reading.year two.reading.month
      inverted := exchanged
      totalDays := some (wholeDays one two) } := by
  have hclock : one.HasClock := fun data hzone => absurd hzone (hnamed data)
  have hr : Reading.ofLocalSeconds (two.epoch + one.offset) two.microsecond = .ok two.reading :=
    (Reading.ofLocalSeconds_eq_ok_iff htwo.valid.microsecond).2
      ⟨htwo.valid, by rw [htwo.shows, hoffset], rfl⟩
  exact acrossZones_eq hone horder hclock hr

/-- Two instants on one clock have a difference, unless they are of a named zone that is asked
outside the calendar. -/
theorem exists_diff_iff_of_oneClock (ha : a.Consistent) (hb : b.Consistent)
    (hclock : OneClock a b) :
    (∃ i notes, a.diff b = .ok (i, notes)) ↔ ¬AskedOutside a b := by
  rcases hclock.named_or_offset with ⟨data, hazone, hbzone⟩ | ⟨hanamed, hbnamed, hoffset⟩
  · rw [← exists_diff_error_iff_of_sameZone ⟨ha, hazone⟩ ⟨hb, hbzone⟩]
    have hexists := exists_eq_ok_iff (x := a.diff b)
    rw [Prod.exists] at hexists
    rw [hexists, not_exists]
  · have hzones := sameNamed_of_not_named (b := b) hanamed
    refine iff_of_true ?_ ?_
    · obtain ⟨one, two, exchanged, horder⟩ :
          ∃ one two exchanged, a.inOrder b = (one, two, exchanged) := ⟨_, _, _, rfl⟩
      rw [diff_eq hzones]
      rcases inOrder_cases horder with ⟨rfl, rfl⟩ | ⟨rfl, rfl⟩
      · rw [acrossZones_of_offset ha hb hanamed hoffset horder]
        exact ⟨_, _, rfl⟩
      · rw [acrossZones_of_offset hb ha hbnamed hoffset.symm horder]
        exact ⟨_, _, rfl⟩
    · rintro ⟨data, rule, one, two, exchanged, hazone, -⟩
      exact hanamed data hazone

/-! ## The result -/

/-- The earlier one of two instants, or the first. -/
def earlierOf (a b : Instant) : Instant :=
  if b.earlierThan a then b else a

/-- Outside of one named zone, the first of the instants in order is the earlier one. -/
theorem exists_inOrder_of_zones (ha : a.Consistent) (hb : b.Consistent)
    (hzones : a.zone.sameNamed b.zone = false) :
    ∃ one two exchanged, a.inOrder b = (one, two, exchanged) ∧ one = earlierOf a b ∧
      one.microEpoch ≤ two.microEpoch := by
  rw [inOrder_eq hzones, earlierOf]
  cases hearlier : b.earlierThan a with
  | true =>
    have hless := (hb.earlierThan_iff ha).1 hearlier
    exact ⟨b, a, true, rfl, rfl, by omega⟩
  | false =>
    rw [← Bool.not_eq_true, hb.earlierThan_iff ha] at hearlier
    exact ⟨a, b, false, rfl, rfl, by omega⟩

/-- On a clock that stands still, the years, months and days of a difference lead to a date as many
days on as it counts. -/
theorem exists_normalize_datePart_of_offset (ha : a.Consistent) (hb : b.Consistent)
    (hanamed : ∀ data, a.zone ≠ .named data) (hbnamed : ∀ data, b.zone ≠ .named data)
    (hoffset : a.offset = b.offset) (h : a.diff b = .ok (i, notes)) :
    ∃ moved, ((earlierOf a b).reading.plus i.amounts.datePart).normalize = .ok moved ∧
      moved.date.dayNumber - (earlierOf a b).reading.date.dayNumber =
        clockSpan a b / 86400000000 := by
  have hzones := sameNamed_of_not_named (b := b) hanamed
  rw [diff_eq hzones] at h
  obtain ⟨j, hj, h⟩ := bind_eq_ok.1 h
  obtain ⟨rfl, -⟩ := Prod.mk.inj (pure_eq_ok.1 h)
  obtain ⟨one, two, exchanged, horder, hearlier, hle⟩ := exists_inOrder_of_zones ha hb hzones
  -- In order, the instants are on the same clock still, and as far apart.
  obtain ⟨hone, htwo, hnamed, hclock, hspan⟩ :
      one.Consistent ∧ two.Consistent ∧ (∀ data, one.zone ≠ .named data) ∧
        one.offset = two.offset ∧ clockSpan a b = clockSpan two one := by
    rcases inOrder_cases horder with ⟨rfl, rfl⟩ | ⟨rfl, rfl⟩
    · exact ⟨ha, hb, hanamed, hoffset, clockSpan_comm _ _⟩
    · exact ⟨hb, ha, hbnamed, hoffset.symm, rfl⟩
  rw [acrossZones_of_offset hone htwo hnamed hclock horder] at hj
  obtain rfl := Except.ok.inj hj
  have honetotal := hone.microTotal_eq
  have htwototal := htwo.microTotal_eq
  have hreadings : one.reading.microTotal ≤ two.reading.microTotal := by omega
  obtain ⟨moved, hmoved, hdays⟩ :=
    Reading.exists_normalize_plus_datePart hone.valid htwo.valid hreadings
  rw [← hearlier]
  refine ⟨moved, hmoved, ?_⟩
  rw [hdays, hspan, clockSpan_eq htwo hone]
  omega

/-- Two instants on one clock, their readings not in the reverse of their exact order.  They have a
difference, unless they are of a named zone that is asked outside the calendar; it counts the whole
days between the readings; and where the clock stands still, its years, months and days lead as
many days on from the earlier date. -/
theorem totalDays_clock (ha : a.Consistent) (hb : b.Consistent) (hclock : OneClock a b)
    (hagree : InAgreement a b) :
    ((∃ i notes, a.diff b = .ok (i, notes)) ↔ ¬AskedOutside a b) ∧
      ∀ i notes, a.diff b = .ok (i, notes) →
        i.totalDays = some (clockSpan a b / 86400000000) ∧
          ((∀ data, a.zone ≠ .named data) →
            ∃ moved, ((earlierOf a b).reading.plus i.amounts.datePart).normalize = .ok moved ∧
              i.totalDays =
                some (moved.date.dayNumber - (earlierOf a b).reading.date.dayNumber)) := by
  refine ⟨exists_diff_iff_of_oneClock ha hb hclock, fun i notes hdiff => ?_⟩
  have htotal : i.totalDays = some (clockSpan a b / 86400000000) := by
    rcases totalDays_cases hdiff with h | h
    · rw [h, wholeDays_of_oneClock ha hb hclock hagree]
    · rw [h, wholeDays_of_oneClock hb ha hclock.symm hagree.symm, clockSpan_comm]
  refine ⟨htotal, fun hnamed => ?_⟩
  rcases hclock.named_or_offset with ⟨data, hazone, -⟩ | ⟨hanamed, hbnamed, hoffset⟩
  · exact absurd hazone (hnamed data)
  · obtain ⟨moved, hmoved, hdays⟩ :=
      exists_normalize_datePart_of_offset ha hb hanamed hbnamed hoffset hdiff
    exact ⟨moved, hmoved, by rw [htotal, hdays]⟩

/-- Three hours after the end of February 2023, in UTC. -/
def marchNight : Instant where
  reading := ⟨2023, 3, 1, 3, 0, 0, 0⟩
  epoch := 1677639600
  kept := 0
  isDaylight := false
  zone := januaryEnd.zone

/-- From an hour before the end of January it is a month less three days, and some hours. -/
theorem totalDays_marchNight :
    ∃ i notes, januaryEnd.diff marchNight = .ok (i, notes) ∧ i.totalDays = some 28 := by
  have hjanuary : januaryEnd.Consistent := ⟨(Reading.check_eq_ok_iff _).1 rfl, rfl, rfl⟩
  have hmarch : marchNight.Consistent := ⟨(Reading.check_eq_ok_iff _).1 rfl, rfl, rfl⟩
  have hasked : ¬AskedOutside januaryEnd marchNight := by
    rintro ⟨data, rule, one, two, exchanged, hzone, -⟩
    contradiction
  obtain ⟨hexists, hdays⟩ := totalDays_clock hjanuary hmarch
    (.fixed _ _ rfl rfl rfl) ⟨by decide, by decide⟩
  obtain ⟨i, notes, hdiff⟩ := hexists.2 hasked
  exact ⟨i, notes, hdiff, (hdays i notes hdiff).1.trans (by decide)⟩

/-- Eleven days and some hours before the end of the calendar. -/
def lastDecemberNoon : Instant where
  reading := ⟨9999, 12, 20, 12, 0, 0, 0⟩
  epoch := 253401325200
  kept := -18000
  isDaylight := false
  zone := .named eastern

/-- The last evening of the calendar in the same zone, later than in UTC. -/
def lastDecemberEvening : Instant where
  reading := ⟨9999, 12, 31, 20, 0, 0, 0⟩
  epoch := 253402304400
  kept := -18000
  isDaylight := false
  zone := .named eastern

/-- The readings are eleven days apart, but the zone is asked for a transition in the year 10000,
and there is no difference. -/
theorem not_totalDays_lastDecember :
    lastDecemberNoon.Consistent ∧ lastDecemberEvening.Consistent ∧
      OneClock lastDecemberNoon lastDecemberEvening ∧
      InAgreement lastDecemberNoon lastDecemberEvening ∧
      clockSpan lastDecemberNoon lastDecemberEvening / 86400000000 = 11 ∧
      lastDecemberNoon.diff lastDecemberEvening = .error (.year 10000) :=
  ⟨⟨(Reading.check_eq_ok_iff _).1 rfl, rfl, rfl⟩, ⟨(Reading.check_eq_ok_iff _).1 rfl, rfl, rfl⟩,
    .named eastern rfl rfl, ⟨by decide, by decide⟩, by decide, rfl⟩

end Instant

end CivilTime
