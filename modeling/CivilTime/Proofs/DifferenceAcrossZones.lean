import CivilTime.Instant.Difference
import CivilTime.Proofs.ConsistentInstant
import CivilTime.Proofs.ReadingDifference

/-!
# Differences across zones

Two instants that are not in one named zone are compared on the clock of the
earlier one.  The difference is the normal difference of two readings, so it
leads from the one to the other, and it does not depend on which instant is
asked.

* `clockZone_shows` is about the clock: it stands at the offset of the
  instant, at any exact time.
* `acrossZones_eq` computes the difference of two instants in order.
* `add_eq_inZone` says that adding amounts on a clock that stands still gives
  the instant of the reading.
* `diff_across_zones` is the result.
-/

namespace CivilTime

namespace Instant

variable {s t : Instant}

/-! ## The clock of an instant -/

/-- A zone whose clock stands at an offset, whatever the exact time. -/
def StandsAt (zone : Zone) (offset : Int) : Prop :=
  ∀ epoch, ∃ kept isDaylight, zone.offsetAt epoch = .ok (kept, isDaylight) ∧
    zone.fullOffset kept isDaylight = offset

/-- An instant has the offset at which its clock stands. -/
theorem offset_of_standsAt {zone : Zone} {offset : Int} (h : StandsAt zone offset)
    (ht : t.Consistent) (hzone : t.zone = zone) : t.offset = offset := by
  subst hzone
  obtain ⟨kept, isDaylight, hoffset, hfull⟩ := h t.epoch
  rw [ht.prescribed] at hoffset
  obtain ⟨rfl, rfl⟩ := Prod.mk.inj (Except.ok.inj hoffset)
  exact hfull

/-- The clock of a zone that is not named stands at the offset of the
instant. -/
theorem standsAt_of_not_named (h : t.Consistent) (hnamed : ∀ data, t.zone ≠ .named data) :
    StandsAt t.zone t.offset := by
  have hprescribed := h.prescribed
  unfold offset
  cases hzone : t.zone with
  | fixed fixedOffset =>
    rw [hzone] at hprescribed
    obtain ⟨hkept, hdaylight⟩ := Prod.mk.inj (Except.ok.inj hprescribed)
    exact fun epoch => ⟨_, _, rfl, by rw [hkept, hdaylight]⟩
  | abbreviation name standard isDaylight =>
    rw [hzone] at hprescribed
    obtain ⟨hkept, hdaylight⟩ := Prod.mk.inj (Except.ok.inj hprescribed)
    exact fun epoch => ⟨_, _, rfl, by rw [hkept, hdaylight]⟩
  | named data => exact absurd hzone (hnamed data)

/-- The offset of an instant in a named zone is less than a day, as it has to
be for a clock that stands still.  The other zones have such a clock. -/
def HasClock (t : Instant) : Prop :=
  ∀ data, t.zone = .named data → t.offset.natAbs < 86400

/-- The clock on which an instant is compared stands at its offset. -/
theorem clockZone_standsAt (h : t.Consistent) (hclock : t.HasClock) :
    ∃ zone, t.clockZone = .ok zone ∧ StandsAt zone t.offset := by
  by_cases hnamed : ∀ data, t.zone ≠ .named data
  · refine ⟨t.zone, ?_, standsAt_of_not_named h hnamed⟩
    unfold clockZone
    split
    · next data hzone => exact absurd hzone (hnamed data)
    · rfl
  · obtain ⟨data, hzone⟩ : ∃ data, t.zone = .named data := by simpa using hnamed
    have hkept : t.offset = t.kept := by rw [offset, hzone, Zone.fullOffset]
    have hoffset := hclock data hzone
    rw [hkept] at hoffset ⊢
    refine ⟨.fixed ⟨t.kept, hoffset⟩, ?_, fun epoch => ⟨t.kept, false, rfl, Int.add_zero _⟩⟩
    rw [clockZone, hzone]
    exact bind_eq_ok.2 ⟨⟨t.kept, hoffset⟩, dif_pos hoffset, rfl⟩

/-- On a clock that stands still, an exact time has the reading of its seconds
at the offset of the clock. -/
theorem atEpoch_of_standsAt {zone : Zone} {offset epoch microsecond : Int} {r : Reading}
    (h : StandsAt zone offset) (hr : Reading.ofLocalSeconds (epoch + offset) microsecond = .ok r) :
    ∃ u, atEpoch zone epoch microsecond = .ok u ∧ u.reading = r := by
  obtain ⟨kept, isDaylight, hoffset, hfull⟩ := h epoch
  refine ⟨⟨r, epoch, kept, isDaylight, zone⟩, ?_, rfl⟩
  exact bind_eq_ok.2 ⟨_, hoffset, bind_eq_ok.2 ⟨r, hfull ▸ hr, rfl⟩⟩

/-! ## Two instants in order -/

theorem sameNamed_comm (x y : Zone) : x.sameNamed y = y.sameNamed x := by
  cases x with
  | named data =>
    cases y with
    | named data' => exact decide_eq_decide.2 eq_comm
    | _ => rfl
  | _ => cases y <;> rfl

theorem inOrder_eq (hzones : s.zone.sameNamed t.zone = false) :
    s.inOrder t = if t.earlierThan s then (t, s, true) else (s, t, false) := by
  rw [inOrder, hzones]
  rfl

/-- Outside of one named zone, the difference is taken across zones. -/
theorem diff_eq (hzones : s.zone.sameNamed t.zone = false) :
    s.diff t = do return (← acrossZones s t, []) := by
  unfold diff
  split
  · next x y hs ht =>
    rw [hs, ht] at hzones
    exact if_neg (of_decide_eq_false hzones)
  · rfl

/-- The difference of two instants in order is the normal difference of the
reading of the first and the reading of the second on the clock of the
first. -/
theorem acrossZones_eq {a b : Instant} {inverted : Bool} {r : Reading} (hs : s.Consistent)
    (horder : a.inOrder b = (s, t, inverted)) (hclock : s.HasClock)
    (hr : Reading.ofLocalSeconds (t.epoch + s.offset) t.microsecond = .ok r) :
    acrossZones a b = .ok {
      amounts := (s.reading.difference r).normalize r.year r.month
      inverted
      totalDays := some (wholeDays s t) } := by
  obtain ⟨zone, hzone, hstands⟩ := clockZone_standsAt hs hclock
  obtain ⟨u, hu, rfl⟩ := atEpoch_of_standsAt hstands hr
  unfold acrossZones
  rw [horder]
  exact bind_eq_ok.2 ⟨zone, hzone, bind_eq_ok.2 ⟨u, hu, rfl⟩⟩

theorem not_earlierThan_iff :
    t.earlierThan s = false ↔
      s.epoch < t.epoch ∨ s.epoch = t.epoch ∧ s.microsecond ≤ t.microsecond := by
  simp only [earlierThan, Bool.or_eq_false_iff, Bool.and_eq_false_imp, decide_eq_false_iff_not,
    decide_eq_true_eq]
  omega

theorem sameTime_iff : s.sameTime t = true ↔ s.epoch = t.epoch ∧ s.microsecond = t.microsecond := by
  simp only [sameTime, Bool.and_eq_true, decide_eq_true_eq]

/-- Between instants at the same time there are no whole days. -/
theorem wholeDays_of_sameTime (hs : s.Consistent) (ht : t.Consistent)
    (hzones : s.zone.sameNamed t.zone = false) (hsame : s.sameTime t = true) :
    wholeDays s t = 0 := by
  obtain ⟨hepoch, -⟩ := sameTime_iff.1 hsame
  unfold wholeDays
  split
  · next hclock =>
    have hoffset : s.offset = t.offset := by
      unfold sameClock at hclock
      split at hclock
      · next x y hx hy =>
        rw [hx, hy] at hzones
        exact absurd hclock (by simpa [Zone.sameNamed] using hzones)
      · exact of_decide_eq_true hclock
      · exact of_decide_eq_true hclock
      · contradiction
    have hdate : s.reading.date.dayNumber = t.reading.date.dayNumber := by
      rw [← (Reading.localSeconds_split hs.valid).1, ← (Reading.localSeconds_split ht.valid).1,
        hs.shows, ht.shows, hepoch, hoffset]
    simp [hdate]
  · rw [hepoch, Int.sub_self]
    rfl

/-! ## Adding the difference -/

/-- On a clock that stands still, a reading has one exact time. -/
theorem epochOf_eq {zone : Zone} (hnamed : ∀ data, zone ≠ .named data) {epoch kept : Int}
    {isDaylight : Bool} (hoffset : zone.offsetAt epoch = .ok (kept, isDaylight)) (r : Reading)
    (choice : Choice) :
    zone.epochOf r choice = .ok (r.localSeconds - zone.fullOffset kept isDaylight) := by
  cases zone with
  | fixed fixedOffset =>
    cases hoffset
    simp [Zone.epochOf, Zone.fullOffset, Zone.daylightHour]
  | abbreviation name standard daylight =>
    cases hoffset
    simp only [Zone.epochOf, Zone.fullOffset, Int.sub_sub]
  | named data => exact absurd rfl (hnamed data)

/-- Adding amounts on a clock that stands still gives the instant of the new
reading. -/
theorem add_eq_inZone (hs : s.Consistent) (hnamed : ∀ data, s.zone ≠ .named data) {r : Reading}
    {a : Amounts} (hr : Reading.ofLocalSeconds (t.epoch + s.offset) t.microsecond = .ok r)
    (hmicro : 0 ≤ t.microsecond ∧ t.microsecond < 1000000)
    (hplus : (s.reading.plus a).normalize = .ok r) (totalDays : Option Int) :
    s.add (.interval ⟨a, false, totalDays⟩) = t.inZone s.zone := by
  obtain ⟨hvalid, hseconds, hsame⟩ := (Reading.ofLocalSeconds_eq_ok_iff hmicro).1 hr
  have hepoch : s.zone.epochOf r .compatible = .ok t.epoch := by
    have hshown : r.localSeconds - s.zone.fullOffset s.kept s.isDaylight = t.epoch := by
      unfold offset at hseconds
      omega
    rw [epochOf_eq hnamed hs.prescribed, hshown]
  obtain ⟨kept, isDaylight, hoffset, -⟩ := standsAt_of_not_named hs hnamed t.epoch
  have hmoved : s.atMoved (some (.amounts a)) .compatible =
      .ok ⟨r, t.epoch, kept, isDaylight, s.zone⟩ := by
    refine bind_eq_ok.2 ⟨r, hplus, bind_eq_ok.2 ⟨r.date.dayNumber, ?_, ?_⟩⟩
    · exact (Date.toDayNumber_eq_ok_iff _ _).2 ⟨hvalid.date, rfl⟩
    · exact bind_eq_ok.2 ⟨_, hepoch, bind_eq_ok.2 ⟨_, hoffset, rfl⟩⟩
  rw [add_forward, shiftReading, hmoved]
  change atEpoch s.zone t.epoch r.microsecond = _
  rw [hsame, inZone]

/-! ## The difference -/

/-- The reading of a later instant on the clock of an earlier one has no
smaller total. -/
theorem microTotal_le (hs : s.Consistent) {r : Reading}
    (hmicro : 0 ≤ t.microsecond ∧ t.microsecond < 1000000)
    (hr : Reading.ofLocalSeconds (t.epoch + s.offset) t.microsecond = .ok r)
    (horder : t.earlierThan s = false) : s.reading.microTotal ≤ r.microTotal := by
  obtain ⟨hvalid, hseconds, hsame⟩ := (Reading.ofLocalSeconds_eq_ok_iff hmicro).1 hr
  have hcases := not_earlierThan_iff.1 horder
  have hsmicro := hs.valid.microsecond
  rw [Reading.microTotal_of_valid hs.valid, Reading.microTotal_of_valid hvalid, hs.shows, hseconds,
    hsame]
  unfold microsecond at *
  omega

/-- On the clock of an instant, another is read the same exactly if it is at
the same time. -/
theorem reading_eq_iff (hs : s.Consistent) {r : Reading}
    (hmicro : 0 ≤ t.microsecond ∧ t.microsecond < 1000000)
    (hr : Reading.ofLocalSeconds (t.epoch + s.offset) t.microsecond = .ok r) :
    s.reading = r ↔ s.sameTime t = true := by
  obtain ⟨hvalid, hseconds, hsame⟩ := (Reading.ofLocalSeconds_eq_ok_iff hmicro).1 hr
  have hshows := hs.shows
  rw [sameTime_iff]
  constructor
  · rintro rfl
    exact ⟨by omega, hsame⟩
  · rintro ⟨hepoch, hmicros⟩
    exact Reading.eq_of_localSeconds hs.valid hvalid (by omega) (hmicros.trans hsame.symm)

/-- Two instants at the same time differ by nothing, whichever is asked. -/
theorem diff_of_sameTime (hs : s.Consistent) (ht : t.Consistent)
    (hzones : s.zone.sameNamed t.zone = false) (hclock : s.HasClock)
    (hsame : s.sameTime t = true) :
    s.diff t = .ok (⟨{}, false, some 0⟩, []) := by
  obtain ⟨hepoch, hmicro⟩ := sameTime_iff.1 hsame
  have hr : Reading.ofLocalSeconds (t.epoch + s.offset) t.microsecond = .ok s.reading :=
    (Reading.ofLocalSeconds_eq_ok_iff ht.valid.microsecond).2
      ⟨hs.valid, by rw [hs.shows, hepoch], hmicro⟩
  have horder : s.inOrder t = (s, t, false) := by
    rw [inOrder_eq hzones, if_neg]
    rw [Bool.not_eq_true, not_earlierThan_iff]
    omega
  rw [diff_eq hzones, acrossZones_eq hs horder hclock hr, wholeDays_of_sameTime hs ht hzones hsame,
    (Reading.normalize_difference_eq_zero_iff hs.valid hs.valid (Int.le_refl _)).2 rfl]
  rfl

/-- The difference of two instants that are not in one named zone, the first of
them no later than the second.  It is the same from either side except for its
direction, has every unit in its range, leads from the reading of the first to
that of the second on the same clock, and is zero exactly at the same time.  On
a clock that stands still, adding it gives the second instant. -/
theorem diff_across_zones (hs : s.Consistent) (ht : t.Consistent)
    (hzones : s.zone.sameNamed t.zone = false) (horder : t.earlierThan s = false)
    (hclock : s.HasClock) (htie : s.sameTime t = true → t.HasClock) {r : Reading}
    (hr : Reading.ofLocalSeconds (t.epoch + s.offset) t.microsecond = .ok r) :
    ∃ amounts days,
      s.diff t = .ok (⟨amounts, false, some days⟩, []) ∧
      t.diff s = .ok (⟨amounts, s.earlierThan t, some days⟩, []) ∧
      amounts.InRange ∧
      (s.reading.plus amounts).normalize = .ok r ∧
      (amounts = {} ↔ s.sameTime t = true) ∧
      ((∀ data, s.zone ≠ .named data) → ∃ u, t.inZone s.zone = .ok u ∧
        s.add (.interval ⟨amounts, false, some days⟩) = .ok u) := by
  have hmicro := ht.valid.microsecond
  have hvalid := ((Reading.ofLocalSeconds_eq_ok_iff hmicro).1 hr).1
  have htotal := microTotal_le hs hmicro hr horder
  have hplus := Reading.normalize_plus_difference hs.valid hvalid htotal
  have hforward : s.inOrder t = (s, t, false) := by
    rw [inOrder_eq hzones, if_neg (by simp [horder])]
  refine ⟨_, wholeDays s t, ?_, ?_, Reading.difference_inRange hs.valid hvalid htotal, hplus,
    (Reading.normalize_difference_eq_zero_iff hs.valid hvalid htotal).trans
      (reading_eq_iff hs hmicro hr), fun hnamed => ?_⟩
  · rw [diff_eq hzones, acrossZones_eq hs hforward hclock hr]
    rfl
  · rw [sameNamed_comm] at hzones
    cases hearlier : s.earlierThan t with
    | true =>
      have hbackward : t.inOrder s = (s, t, true) := by rw [inOrder_eq hzones, if_pos hearlier]
      rw [diff_eq hzones, acrossZones_eq hs hbackward hclock hr]
      rfl
    | false =>
      -- Neither is earlier, so each is compared on its own clock.
      have hsame : s.sameTime t = true := by
        rw [not_earlierThan_iff] at horder hearlier
        rw [sameTime_iff]
        omega
      have hsame' : t.sameTime s = true := by
        obtain ⟨hepoch, hmicros⟩ := sameTime_iff.1 hsame
        exact sameTime_iff.2 ⟨hepoch.symm, hmicros.symm⟩
      have hzero := (Reading.normalize_difference_eq_zero_iff hs.valid hvalid htotal).2
        ((reading_eq_iff hs hmicro hr).2 hsame)
      rw [hzero, diff_of_sameTime ht hs hzones (htie hsame) hsame',
        wholeDays_of_sameTime hs ht (by rw [sameNamed_comm, hzones]) hsame]
  · obtain ⟨u, hu, -⟩ := atEpoch_of_standsAt (standsAt_of_not_named hs hnamed) hr
    exact ⟨u, hu, (add_eq_inZone hs hnamed hr hmicro hplus _).trans hu⟩

/-- One hour before the end of January 2023, in UTC. -/
def januaryEnd : Instant where
  reading := ⟨2023, 1, 31, 23, 0, 0, 0⟩
  epoch := 1675206000
  kept := 0
  isDaylight := false
  zone := .fixed ⟨0, by decide⟩

/-- The beginning of March 2023 in UTC, on a clock two hours ahead. -/
def marchBegin : Instant where
  reading := ⟨2023, 3, 1, 2, 0, 0, 0⟩
  epoch := 1677628800
  kept := 7200
  isDaylight := false
  zone := .fixed ⟨7200, by decide⟩

theorem diff_januaryEnd_marchBegin :
    ∃ amounts days,
      januaryEnd.diff marchBegin = .ok (⟨amounts, false, some days⟩, []) ∧
      marchBegin.diff januaryEnd = .ok (⟨amounts, true, some days⟩, []) ∧
      amounts.InRange ∧
      (januaryEnd.reading.plus amounts).normalize = .ok ⟨2023, 3, 1, 0, 0, 0, 0⟩ := by
  have hjanuary : januaryEnd.Consistent :=
    ⟨⟨by decide, by decide, by decide, by decide, by decide⟩, rfl, rfl⟩
  have hmarch : marchBegin.Consistent :=
    ⟨⟨by decide, by decide, by decide, by decide, by decide⟩, rfl, rfl⟩
  have hclock : ∀ t : Instant, (∀ data, t.zone ≠ .named data) → t.HasClock :=
    fun t h data hzone => absurd hzone (h data)
  obtain ⟨amounts, days, hforward, hbackward, hrange, hplus, -, -⟩ :=
    diff_across_zones hjanuary hmarch rfl rfl (hclock _ fun _ h => nomatch h)
      (fun _ => hclock _ fun _ h => nomatch h)
      (show Reading.ofLocalSeconds 1677628800 0 = .ok ⟨2023, 3, 1, 0, 0, 0, 0⟩ from rfl)
  exact ⟨amounts, days, hforward, hbackward, hrange, hplus⟩

end Instant

end CivilTime
