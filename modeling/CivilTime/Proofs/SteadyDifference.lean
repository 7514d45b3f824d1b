import CivilTime.Proofs.DifferenceAcrossZones
import CivilTime.Proofs.SteadyZones

/-!
# Differences in a steady zone

The difference of two instants of one named zone is corrected for transitions, and
that of other instants is taken on the clock of the earlier one.  Where the zone is
steady, both are the difference of the two readings.

* `LiesIn` is an instant of a zone, and `LiesIn.diff_eq` computes the difference
  of two in a steady zone.
* `LiesIn.diff_alike` is the result: instants that show the same, in zones that need
  not be of one kind, have the same difference.
-/

namespace CivilTime.Instant

variable {y z : Zone} {offset : Int} {a b t u t' u' : Instant}

/-- A consistent instant in a zone. -/
structure LiesIn (z : Zone) (t : Instant) : Prop extends Consistent t where
  zone : t.zone = z

/-- The difference of two readings, and the days between their instants. -/
def readingInterval (one two : Instant) (inverted : Bool) : Interval where
  amounts := (one.reading.difference two.reading).normalize two.reading.year two.reading.month
  inverted
  totalDays := some (wholeDays one two)

/-- A rule without daylight time has no period with a beginning. -/
theorem periodAt_of_steady (key : Option String) (epoch : Int) :
    (ZoneData.ofRule key ⟨offset, none⟩).periodAt epoch = .ok none := by
  have hnone : firstAfter ExactEntry.since (ZoneData.ofRule key ⟨offset, none⟩).exactTable
      epoch = none := firstAfter_empty
  rw [ZoneData.periodAt, hnone]
  rfl

/-- A named zone without daylight time corrects nothing. -/
theorem correction_of_steady {key : Option String} (ht : t.isDaylight = false)
    (hu : u.isDaylight = false) (change : Int) :
    correction (.ofRule key ⟨offset, none⟩) t u change = .ok .none := by
  rw [correction_of_sameFlag (ht.trans hu.symm)]
  split
  · rw [periodAt_of_steady]
    rfl
  · rfl

namespace LiesIn

theorem offset_eq (ht : LiesIn z t) (hz : z.Steady offset) : t.offset = offset := by
  obtain ⟨kept, isDaylight, hoffset, hfull⟩ := hz.offsetAt_eq
  exact offset_of_standsAt (fun epoch => ⟨kept, isDaylight, hoffset epoch, hfull⟩)
    ht.toConsistent ht.zone

/-- In a steady zone the readings come in the order of the exact times. -/
theorem before_eq (ht : LiesIn z t) (hu : LiesIn z u) (hz : z.Steady offset) :
    t.reading.before u.reading = t.earlierThan u := by
  rw [Bool.eq_iff_iff, Reading.before_iff ht.valid hu.valid, ht.microTotal_eq, hu.microTotal_eq,
    ht.offset_eq hz, hu.offset_eq hz, ht.earlierThan_iff hu.toConsistent]
  omega

theorem inOrder_eq (ht : LiesIn z t) (hu : LiesIn z u) (hz : z.Steady offset) :
    t.inOrder u = if u.earlierThan t then (u, t, true) else (t, u, false) := by
  rw [inOrder, hu.before_eq ht hz, ite_self]

theorem sameClock_eq (ht : LiesIn z t) (hu : LiesIn z u) (hz : z.Steady offset) :
    t.sameClock u = true := by
  have hoffset : t.offset = u.offset := (ht.offset_eq hz).trans (hu.offset_eq hz).symm
  rw [sameClock, ht.zone, hu.zone]
  cases hz with
  | named key text offset => exact decide_eq_true rfl
  | _ => exact decide_eq_true hoffset

/-! ## The two ways to take a difference -/

/-- Outside of named zones the difference is taken on the clock of the zone. -/
theorem diff_eq_of_not_named (ht : LiesIn z t) (hu : LiesIn z u) (ha : LiesIn z a)
    (hz : z.Steady offset) (hnamed : ∀ data, z ≠ .named data) {inverted : Bool}
    (horder : a.inOrder b = (t, u, inverted)) :
    a.diff b = .ok (readingInterval t u inverted, []) := by
  have hzones : a.zone.sameNamed b.zone = false := by
    rw [ha.zone]
    cases hz with
    | named key text offset => exact absurd rfl (hnamed _)
    | _ => rfl
  have hclock : t.HasClock := fun data h => absurd (ht.zone.symm.trans h) (hnamed data)
  have hreading : Reading.ofLocalSeconds (u.epoch + t.offset) u.microsecond = .ok u.reading := by
    rw [ht.offset_eq hz, ← hu.offset_eq hz]
    exact (Reading.ofLocalSeconds_eq_ok_iff hu.valid.microsecond).2 ⟨hu.valid, hu.shows, rfl⟩
  rw [diff_eq hzones, acrossZones_eq ht.toConsistent horder hclock hreading]
  rfl

/-- A rule without daylight time never marks it. -/
theorem isDaylight_eq {key : Option String} (ht : LiesIn (.named (.ofRule key ⟨offset, none⟩)) t) :
    t.isDaylight = false := by
  have hprescribed := ht.prescribed
  rw [ht.zone, Zone.offsetAt, ZoneData.offsetAt_ofRule] at hprescribed
  exact (Prod.mk.inj (Except.ok.inj hprescribed)).2.symm

/-- In a named zone the difference is taken between the readings, and corrected. -/
theorem diff_eq_of_named {key : Option String}
    (ht : LiesIn (.named (.ofRule key ⟨offset, none⟩)) t)
    (hu : LiesIn (.named (.ofRule key ⟨offset, none⟩)) u)
    (ha : LiesIn (.named (.ofRule key ⟨offset, none⟩)) a)
    (hb : LiesIn (.named (.ofRule key ⟨offset, none⟩)) b) (hle : u.earlierThan t = false)
    {inverted : Bool} (horder : a.inOrder b = (t, u, inverted)) :
    a.diff b = .ok (readingInterval t u inverted, []) := by
  have hnot : ¬ u.epoch < t.epoch := by
    have hcases := not_earlierThan_iff.1 hle
    omega
  rw [diff_eq_of_correction ha.zone hb.zone horder
    (correction_of_steady ht.isDaylight_eq hu.isDaylight_eq _), correctedInterval, clockAmounts,
    if_neg hnot, decide_eq_false hnot, Bool.bne_false]
  rfl

/-- Either way the difference is that of the readings. -/
theorem diff_eq_of_inOrder (ht : LiesIn z t) (hu : LiesIn z u) (ha : LiesIn z a) (hb : LiesIn z b)
    (hz : z.Steady offset) (hle : u.earlierThan t = false) {inverted : Bool}
    (horder : a.inOrder b = (t, u, inverted)) :
    a.diff b = .ok (readingInterval t u inverted, []) := by
  by_cases hnamed : ∀ data, z ≠ .named data
  · exact diff_eq_of_not_named ht hu ha hz hnamed horder
  · cases hz with
    | named key text offset => exact diff_eq_of_named ht hu ha hb hle horder
    | _ => exact absurd (fun _ h => nomatch h) hnamed

/-- In a steady zone the difference is that of the readings, the earlier one
first. -/
theorem diff_eq (ht : LiesIn z t) (hu : LiesIn z u) (hz : z.Steady offset) :
    t.diff u = .ok (if u.earlierThan t then readingInterval u t true
      else readingInterval t u false, []) := by
  have horder := ht.inOrder_eq hu hz
  cases hearlier : u.earlierThan t with
  | true =>
    have hle : t.earlierThan u = false := by
      rw [hu.earlierThan_iff ht.toConsistent] at hearlier
      rw [← Bool.not_eq_true, ht.earlierThan_iff hu.toConsistent]
      omega
    rw [hearlier] at horder
    exact diff_eq_of_inOrder hu ht ht hu hz hle horder
  | false =>
    rw [hearlier] at horder
    exact diff_eq_of_inOrder ht hu ht hu hz hearlier horder

end LiesIn

/-! ## Instants that show the same -/

theorem earlierThan_alike (ht : t.Alike t') (hu : u.Alike u') :
    t.earlierThan u = t'.earlierThan u' := by
  rw [earlierThan, earlierThan, ht.epoch, hu.epoch, ht.microsecond, hu.microsecond]

/-- On clocks that agree, the readings tell the interval. -/
theorem readingInterval_alike (ht : t.Alike t') (hu : u.Alike u') (hsame : t.sameClock u = true)
    (hsame' : t'.sameClock u' = true) (inverted : Bool) :
    readingInterval t u inverted = readingInterval t' u' inverted := by
  have hdays : wholeDays t u = wholeDays t' u' := by
    rw [wholeDays, wholeDays, if_pos hsame, if_pos hsame', earlierThan_alike ht hu]
    cases t'.earlierThan u' with
    | true => simp only [if_true, ht.reading, hu.reading]
    | false => simp only [Bool.false_eq_true, if_false, ht.reading, hu.reading]
  rw [readingInterval, readingInterval, hdays, ht.reading, hu.reading]

/-- The difference of two instants of a steady zone is that of the instants that
show the same in another. -/
theorem LiesIn.diff_alike {offset' : Int} (hy : y.Steady offset) (hz : z.Steady offset')
    (ht : LiesIn y t) (hu : LiesIn y u) (ht' : LiesIn z t') (hu' : LiesIn z u')
    (htt : t.Alike t') (huu : u.Alike u') : t.diff u = t'.diff u' := by
  rw [ht.diff_eq hu hy, ht'.diff_eq hu' hz, earlierThan_alike huu htt,
    readingInterval_alike htt huu (ht.sameClock_eq hu hy) (ht'.sameClock_eq hu' hz),
    readingInterval_alike huu htt (hu.sameClock_eq ht hy) (hu'.sameClock_eq ht' hz)]

end CivilTime.Instant
