import CivilTime.Proofs.ShiftUndone

/-!
# The two modes agree on a clock that stands still

Absolute mode adds an interval to the reading in one pass.  Wall mode adds the
date part, settles the date, and lets the rest pass as elapsed time.  Where no
offset changes, the two ways meet.

* `shiftReading_amounts_eq_ok_iff` and `dateMoved_eq_ok_iff` say where a sum of
  the reading leads on such a clock: to the instant with the normal form of the
  sum.
* `normalize_plus_iff` is the carrying.  The normal form of a whole sum is the
  date part's, with the smaller units counted on from there.
* `shift_wall_iff_absolute` is the result.  Wall mode asks for one thing more: the
  date in between has to exist.
-/

namespace CivilTime

namespace Reading

/-- Two sums of one reading stand apart by the time of their amounts, if they agree
in the date part. -/
theorem microTotal_plus_datePart (r : Reading) (a : Amounts) :
    (r.plus a).microTotal = (r.plus a.datePart).microTotal + a.timeMicros := by
  have hnone : a.datePart.timeMicros = 0 := rfl
  rw [microTotal_plus, microTotal_plus, hnone]
  simp only [Amounts.datePart]
  omega

/-- Where the date part of a sum has a normal form, the normal form of the sum is
the valid reading that lies after it by the time of the amounts. -/
theorem normalize_plus_iff {r s start : Reading} {a : Amounts}
    (h : (r.plus a.datePart).normalize = .ok start) :
    (r.plus a).normalize = .ok s ↔ s.Valid ∧ s.microTotal = start.microTotal + a.timeMicros := by
  obtain ⟨hyear, -, htotal⟩ := valid_of_normalize h
  rw [normalize_eq_ok_iff, microTotal_plus_datePart, htotal]
  -- The month is carried before the smaller units are looked at.
  exact and_iff_right hyear

end Reading

namespace Instant

variable {t u s : Instant} {zone : Zone} {a : Amounts}

/-! ## Instants on a clock that stands still -/

/-- On a clock that stands still, elapsed time is the time between the readings. -/
theorem microEpoch_eq_iff (hs : s.Consistent) (hu : u.Consistent)
    (hnamed : ∀ data, s.zone ≠ .named data) (hzone : u.zone = s.zone) (micros : Int) :
    u.microEpoch = s.microEpoch + micros ↔
      u.reading.microTotal = s.reading.microTotal + micros := by
  have hoffset : u.offset = s.offset :=
    offset_of_standsAt (standsAt_of_not_named hs hnamed) hu hzone
  rw [hs.microTotal_eq, hu.microTotal_eq, hoffset]
  omega

/-- On a clock that stands still, the instant at a valid reading is consistent. -/
theorem consistent_of_atReading (hnamed : ∀ data, zone ≠ .named data) {r : Reading}
    (hr : r.Valid) {choice : Choice} (h : atReading zone r choice = .ok u) : u.Consistent := by
  obtain ⟨_, _, h⟩ := bind_eq_ok.1 h
  obtain ⟨epoch, hepoch, h⟩ := bind_eq_ok.1 h
  obtain ⟨found, hoffset, h⟩ := bind_eq_ok.1 h
  obtain rfl := pure_eq_ok.1 h
  rw [epochOf_eq hnamed hoffset] at hepoch
  have hshown := Except.ok.inj hepoch
  refine ⟨hr, ?_, hoffset⟩
  show r.localSeconds = epoch + zone.fullOffset found.1 found.2
  omega

/-- On a clock that stands still, a valid reading is that of an instant. -/
theorem exists_consistent_reading (ht : t.Consistent) (hnamed : ∀ data, t.zone ≠ .named data)
    {r : Reading} (hr : r.Valid) :
    ∃ s : Instant, s.Consistent ∧ s.zone = t.zone ∧ s.reading = r := by
  obtain ⟨kept, isDaylight, hoffset, hfull⟩ :=
    standsAt_of_not_named ht hnamed (r.localSeconds - t.offset)
  refine ⟨⟨r, r.localSeconds - t.offset, kept, isDaylight, t.zone⟩, ⟨hr, ?_, hoffset⟩, rfl, rfl⟩
  show r.localSeconds = r.localSeconds - t.offset + t.zone.fullOffset kept isDaylight
  omega

/-! ## Moving the reading -/

/-- On a clock that stands still, a sum is the instant with the normal form of the
reading's sum. -/
theorem shiftReading_amounts_eq_ok_iff (hnamed : ∀ data, t.zone ≠ .named data) :
    t.shiftReading (.amounts a) = .ok u ↔
      u.Consistent ∧ u.zone = t.zone ∧ (t.reading.plus a).normalize = .ok u.reading := by
  constructor
  · intro h
    obtain ⟨r, hr, hvalid, hmeant⟩ := exists_reading_of_shiftReading h
    have hreading := reading_of_ofReading hnamed hvalid hmeant
    obtain ⟨hu, hzone, -⟩ := (ofReading_eq_ok_iff hvalid).1 hmeant
    exact ⟨hu, hzone, hreading ▸ hr⟩
  · rintro ⟨hu, hzone, hr⟩
    have hmove : t.reading.move (.amounts a) = .ok u.reading := hr
    rw [shiftReading_eq hmove hu.valid, ← hzone]
    exact ofReading_reading hu (hzone ▸ hnamed) .compatible

/-- On a clock that stands still, moving the date leaves nothing to repair. -/
theorem dateMoved_eq_shiftReading (ht : t.Consistent) (hnamed : ∀ data, t.zone ≠ .named data)
    (a : Amounts) : t.dateMoved a = t.shiftReading (.amounts a.datePart) := by
  unfold dateMoved
  split
  · next htime =>
    obtain ⟨hyears, hmonths, hdays⟩ := (Amounts.isTimeOnly_iff a).1 htime
    have hsame : t.reading.plus a.datePart = t.reading := by
      simp [Reading.plus, Amounts.datePart, hyears, hmonths, hdays]
    refine ((shiftReading_amounts_eq_ok_iff hnamed).2 ⟨ht, rfl, ?_⟩).symm
    rw [hsame]
    exact Reading.normalize_of_valid ht.valid
  · unfold shiftReading
    cases hmoved : t.atMoved (some (.amounts a.datePart)) .compatible with
    | error failure => rfl
    | ok moved =>
      obtain ⟨r, hr, hread⟩ := bind_eq_ok.1 hmoved
      have hvalid := (Reading.valid_of_normalize hr).2.1
      exact (consistent_of_atReading hnamed hvalid hread).reread.symm

theorem dateMoved_eq_ok_iff (ht : t.Consistent) (hnamed : ∀ data, t.zone ≠ .named data) :
    t.dateMoved a = .ok s ↔
      s.Consistent ∧ s.zone = t.zone ∧ (t.reading.plus a.datePart).normalize = .ok s.reading := by
  rw [dateMoved_eq_shiftReading ht hnamed]
  exact shiftReading_amounts_eq_ok_iff hnamed

/-! ## The two modes -/

theorem shift_absolute_eq (t : Instant) (i : Interval) (direction : ShiftDirection) :
    t.shift (.interval i) .absolute direction =
      t.shiftReading (.amounts (i.signed direction.factor)) := by
  cases direction with
  | forward => rfl
  | backward => rfl

/-- On a clock that stands still, a shift in wall mode succeeds exactly where the
shift in absolute mode does and the date in between exists, and both lead to the
same instant. -/
theorem shift_wall_iff_absolute (ht : t.Consistent) (hnamed : ∀ data, t.zone ≠ .named data)
    (i : Interval) (direction : ShiftDirection) (u : Instant) :
    t.shift (.interval i) .wall direction = .ok u ↔
      t.shift (.interval i) .absolute direction = .ok u ∧
        ∃ r, (t.reading.plus (i.signed direction.factor).datePart).normalize = .ok r := by
  rw [shift_wall_eq, shift_absolute_eq, shiftWall_eq, bind_eq_ok,
    shiftReading_amounts_eq_ok_iff hnamed]
  generalize i.signed direction.factor = a
  simp only [dateMoved_eq_ok_iff ht hnamed, elapse_eq_ok_iff]
  constructor
  · rintro ⟨s, ⟨hs, hzone, hstart⟩, hu, hsame, htime⟩
    have hstands : ∀ data, s.zone ≠ .named data := hzone ▸ hnamed
    rw [microEpoch_eq_iff hs hu hstands hsame] at htime
    exact ⟨⟨hu, hsame.trans hzone, (Reading.normalize_plus_iff hstart).2 ⟨hu.valid, htime⟩⟩,
      s.reading, hstart⟩
  · rintro ⟨⟨hu, hsame, hsum⟩, r, hstart⟩
    obtain ⟨s, hs, hzone, rfl⟩ :=
      exists_consistent_reading ht hnamed (Reading.valid_of_normalize hstart).2.1
    have hstands : ∀ data, s.zone ≠ .named data := hzone ▸ hnamed
    have htime := ((Reading.normalize_plus_iff hstart).1 hsum).2
    rw [← microEpoch_eq_iff hs hu hstands (hsame.trans hzone.symm)] at htime
    exact ⟨s, ⟨hs, hzone, hstart⟩, hu, hsame.trans hzone.symm, htime⟩

/-- Daylight time in the east of North America, by its abbreviation. -/
def easternDaylight : Zone := .abbreviation "EDT" ⟨-18000, by decide⟩ true

/-- The beginning of the last day of March 2024. -/
def lastOfMarch : Instant where
  reading := ⟨2024, 3, 31, 0, 15, 0, 250000⟩
  epoch := 1711858500
  kept := -18000
  isDaylight := true
  zone := easternDaylight

/-- A month, a day and a quarter, and half a second before that. -/
def eveningOfLeapDay : Instant where
  reading := ⟨2024, 2, 29, 18, 14, 59, 750000⟩
  epoch := 1709244899
  kept := -18000
  isDaylight := true
  zone := easternDaylight

/-- A month, thirty hours and half a second. -/
def monthAndThirtyHours : Interval where
  amounts := { months := 1, hours := 30, microseconds := 500000 }
  inverted := false
  totalDays := none

/-- The last day of March is taken back to February, which is too short for it, and
the hours lead back over the end of February. -/
theorem shift_wall_iff_absolute_lastOfMarch :
    lastOfMarch.shift (.interval monthAndThirtyHours) .wall .backward = .ok eveningOfLeapDay ∧
      lastOfMarch.shift (.interval monthAndThirtyHours) .absolute .backward =
        .ok eveningOfLeapDay := by
  have hconsistent : lastOfMarch.Consistent := ⟨(Reading.check_eq_ok_iff _).1 rfl, rfl, rfl⟩
  have hwall : lastOfMarch.shift (.interval monthAndThirtyHours) .wall .backward =
      .ok eveningOfLeapDay := rfl
  exact ⟨hwall, ((shift_wall_iff_absolute hconsistent (fun _ h => nomatch h) monthAndThirtyHours
    .backward _).1 hwall).1⟩

/-- Noon of the last day of the calendar. -/
def lastNoon : Instant where
  reading := ⟨9999, 12, 31, 12, 0, 0, 0⟩
  epoch := 253402272000
  kept := -18000
  isDaylight := true
  zone := easternDaylight

-- Wall mode stops at the day after the last one, though the hours would lead back.
example :
    lastNoon.add (.interval ⟨{ days := 1, hours := -24 }, false, none⟩) = .ok lastNoon ∧
      (lastNoon.addWall (.interval ⟨{ days := 1, hours := -24 }, false, none⟩)).isOk = false :=
  ⟨rfl, rfl⟩

end Instant

end CivilTime
