import CivilTime.Calendar.Bijection
import CivilTime.Proofs.Success
import CivilTime.Reading.Normalize

/-!
# Readings and seconds correspond

A reading whose date exists and whose time of day is in range is the same
thing as a count of seconds within the calendar together with a microsecond.

* `Reading.Valid` is the promise about the seven numbers, and
  `Reading.check_eq_ok_iff` says that the check accepts nothing else.
* `Reading.ofLocalSeconds_eq_ok_iff` is the correspondence: the reading of a
  count of seconds is the valid reading that shows this count.
* `Reading.eq_of_localSeconds` is the half of it that comparisons need.
-/

namespace CivilTime.Reading

/-- The date exists, and the time of day is in range. -/
structure Valid (r : Reading) : Prop where
  date : r.date.Valid
  hour : 0 ≤ r.hour ∧ r.hour < 24
  minute : 0 ≤ r.minute ∧ r.minute < 60
  second : 0 ≤ r.second ∧ r.second < 60
  microsecond : 0 ≤ r.microsecond ∧ r.microsecond < 1000000

theorem check_eq_ok_iff (r : Reading) : r.check = .ok () ↔ r.Valid := by
  rw [check, bind_eq_ok]
  constructor
  · rintro ⟨_, hdate, htime⟩
    split at htime
    · next hrange =>
      obtain ⟨hh, hh', hm, hm', hs, hs', hu, hu'⟩ := hrange
      exact ⟨(Date.check_eq_ok_iff _).1 hdate, ⟨hh, hh'⟩, ⟨hm, hm'⟩, ⟨hs, hs'⟩, ⟨hu, hu'⟩⟩
    · contradiction
  · rintro ⟨hdate, ⟨hh, hh'⟩, ⟨hm, hm'⟩, ⟨hs, hs'⟩, ⟨hu, hu'⟩⟩
    exact ⟨(), (Date.check_eq_ok_iff _).2 hdate, if_pos ⟨hh, hh', hm, hm', hs, hs', hu, hu'⟩⟩

/-! ## The seconds of a valid reading -/

theorem daySeconds_bounds {r : Reading} (h : r.Valid) :
    0 ≤ r.daySeconds ∧ r.daySeconds < 86400 := by
  obtain ⟨_, hhour, hminute, hsecond, _⟩ := h
  unfold daySeconds clockSeconds
  omega

/-- A valid reading is cut back into its time of day. -/
theorem clock_of_daySeconds {r : Reading} (h : r.Valid) :
    hourOf r.daySeconds = r.hour ∧ minuteOf r.daySeconds = r.minute ∧
      secondOf r.daySeconds = r.second := by
  obtain ⟨_, hhour, hminute, hsecond, _⟩ := h
  unfold hourOf minuteOf secondOf daySeconds clockSeconds
  omega

/-- The days and the seconds of the day in the seconds that a valid reading
shows. -/
theorem localSeconds_split {r : Reading} (h : r.Valid) :
    r.localSeconds / 86400 = r.date.dayNumber ∧ r.localSeconds % 86400 = r.daySeconds := by
  have hday := daySeconds_bounds h
  unfold localSeconds
  omega

/-- The reading of a count of seconds, with a microsecond in its range, is the
valid reading that shows both. -/
theorem ofLocalSeconds_eq_ok_iff {seconds microsecond : Int} {r : Reading}
    (hmicro : 0 ≤ microsecond ∧ microsecond < 1000000) :
    ofLocalSeconds seconds microsecond = .ok r ↔
      r.Valid ∧ r.localSeconds = seconds ∧ r.microsecond = microsecond := by
  rw [ofLocalSeconds, bind_eq_ok]
  constructor
  · rintro ⟨date, hdate, hr⟩
    obtain rfl := pure_eq_ok.1 hr
    obtain ⟨hvalid, hnumber⟩ := (Date.fromDayNumber_eq_ok_iff _ _).1 hdate
    refine ⟨⟨hvalid, ?_, ?_, ?_, hmicro⟩, ?_, rfl⟩
    · simp only [hourOf]
      omega
    · simp only [minuteOf]
      omega
    · simp only [secondOf]
      omega
    · change date.dayNumber * 86400 + clockSeconds _ _ _ = seconds
      rw [clockSeconds_parts]
      omega
  · rintro ⟨hvalid, rfl, rfl⟩
    obtain ⟨hdays, hseconds⟩ := localSeconds_split hvalid
    obtain ⟨hhour, hminute, hsecond⟩ := clock_of_daySeconds hvalid
    refine ⟨r.date, (Date.fromDayNumber_eq_ok_iff _ _).2 ⟨hvalid.date, hdays.symm⟩, ?_⟩
    simp only [hseconds, hhour, hminute, hsecond]
    rfl

/-- Valid readings are told apart by the seconds and the microsecond that they
show. -/
theorem eq_of_localSeconds {r s : Reading} (hr : r.Valid) (hs : s.Valid)
    (hseconds : r.localSeconds = s.localSeconds) (hmicro : r.microsecond = s.microsecond) :
    r = s := by
  have hread := (ofLocalSeconds_eq_ok_iff hs.microsecond).2 ⟨hs, rfl, rfl⟩
  have hread' := (ofLocalSeconds_eq_ok_iff hs.microsecond).2 ⟨hr, hseconds, hmicro⟩
  exact Except.ok.inj (hread'.symm.trans hread)

end CivilTime.Reading
