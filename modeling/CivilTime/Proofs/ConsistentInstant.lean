import CivilTime.Instant.Shift
import CivilTime.Proofs.NormalReading

/-!
# Instants that public operations make are consistent

An instant keeps its exact time and its reading side by side.
`Instant.Consistent` says that the two belong together: the reading is valid,
it shows the exact time at the offset of the instant, and offset and daylight
flag are those that the zone gives at that time.

* `atEpoch_eq_ok_iff` is the reason: the instant of an exact time is the one
  consistent instant at that time.  Every public operation ends there.
* `Consistent.reread` and `Consistent.inZone_inZone` follow: there is nothing
  to repair, and reading in another zone can be taken back.
* The section on operations has one lemma for each of them.  In between, a
  moved reading need not belong to its exact time; only its microsecond has
  to be in range, which `move_microsecond` keeps track of.
* `ofReading_eq_ok_iff` says which instant a valid reading means, and
  `shiftReading_eq` that a shift in absolute mode leads to the one that the moved
  reading means.
-/

namespace CivilTime

namespace Instant

/-- The reading belongs to the exact time, at the offset that the zone gives at
that time. -/
structure Consistent (t : Instant) : Prop where
  valid : t.reading.Valid
  shows : t.reading.localSeconds = t.epoch + t.offset
  prescribed : t.zone.offsetAt t.epoch = .ok (t.kept, t.isDaylight)

/-- The instant of an exact time in a zone is the one consistent instant at
that time. -/
theorem atEpoch_eq_ok_iff {zone : Zone} {epoch microsecond : Int} {t : Instant}
    (hmicro : 0 ≤ microsecond ∧ microsecond < 1000000) :
    atEpoch zone epoch microsecond = .ok t ↔
      t.Consistent ∧ t.zone = zone ∧ t.epoch = epoch ∧ t.microsecond = microsecond := by
  rw [atEpoch, bind_eq_ok]
  constructor
  · rintro ⟨⟨kept, isDaylight⟩, hoffset, h⟩
    obtain ⟨reading, hreading, h⟩ := bind_eq_ok.1 h
    obtain rfl := pure_eq_ok.1 h
    obtain ⟨hvalid, hshows, hsame⟩ := (Reading.ofLocalSeconds_eq_ok_iff hmicro).1 hreading
    exact ⟨⟨hvalid, hshows, hoffset⟩, rfl, rfl, hsame⟩
  · rintro ⟨⟨hvalid, hshows, hoffset⟩, rfl, rfl, rfl⟩
    refine ⟨_, hoffset, bind_eq_ok.2 ⟨t.reading, ?_, rfl⟩⟩
    exact (Reading.ofLocalSeconds_eq_ok_iff hmicro).2 ⟨hvalid, hshows, rfl⟩

namespace Consistent

variable {s t : Instant}

/-- The reading stands for the exact time and the offset. -/
theorem microTotal_eq (h : t.Consistent) :
    t.reading.microTotal = t.microEpoch + t.offset * 1000000 := by
  rw [Reading.microTotal_of_valid h.valid, h.shows, microEpoch, microsecond]
  omega

/-- Instants are compared by their exact times. -/
theorem earlierThan_iff (hs : s.Consistent) (ht : t.Consistent) :
    s.earlierThan t = true ↔ s.microEpoch < t.microEpoch := by
  have hsmicro : 0 ≤ s.microsecond ∧ s.microsecond < 1000000 := hs.valid.microsecond
  have htmicro : 0 ≤ t.microsecond ∧ t.microsecond < 1000000 := ht.valid.microsecond
  simp only [earlierThan, Bool.or_eq_true, Bool.and_eq_true, decide_eq_true_eq, microEpoch]
  omega

/-- Deriving the reading anew changes nothing. -/
theorem reread (h : t.Consistent) : t.reread = .ok t :=
  (atEpoch_eq_ok_iff h.valid.microsecond).2 ⟨h, rfl, rfl, rfl⟩

/-- Reading in another zone can be taken back. -/
theorem inZone_inZone (h : t.Consistent) {zone : Zone} {u : Instant}
    (hu : t.inZone zone = .ok u) : u.inZone t.zone = .ok t := by
  obtain ⟨_, _, hepoch, hmicro⟩ := (atEpoch_eq_ok_iff h.valid.microsecond).1 hu
  rw [inZone, hepoch, hmicro]
  exact h.reread

end Consistent

/-! ## Operations -/

theorem consistent_of_inZone {t u : Instant} {zone : Zone} (h : t.Consistent)
    (hu : t.inZone zone = .ok u) : u.Consistent :=
  ((atEpoch_eq_ok_iff h.valid.microsecond).1 hu).1

theorem consistent_of_ofTimestamp {zone : Zone} {epoch microsecond : Int} {t : Instant}
    (h : ofTimestamp zone epoch microsecond = .ok t) : t.Consistent := by
  rw [ofTimestamp] at h
  split at h
  · next hmicro => exact ((atEpoch_eq_ok_iff hmicro).1 h).1
  · contradiction

/-- The instant at a reading has that reading, consistent or not. -/
theorem reading_of_atReading {zone : Zone} {reading : Reading} {choice : Choice} {t : Instant}
    (h : atReading zone reading choice = .ok t) : t.reading = reading ∧ t.zone = zone := by
  obtain ⟨_, _, h⟩ := bind_eq_ok.1 h
  obtain ⟨_, _, h⟩ := bind_eq_ok.1 h
  obtain ⟨_, _, h⟩ := bind_eq_ok.1 h
  obtain rfl := pure_eq_ok.1 h
  exact ⟨rfl, rfl⟩

theorem consistent_of_ofReading {zone : Zone} {reading : Reading} {choice : Choice} {t : Instant}
    (h : ofReading zone reading choice = .ok t) : t.Consistent := by
  obtain ⟨_, hcheck, h⟩ := bind_eq_ok.1 h
  obtain ⟨u, hu, h⟩ := bind_eq_ok.1 h
  have hmicro := ((Reading.check_eq_ok_iff reading).1 hcheck).microsecond
  rw [← (reading_of_atReading hu).1] at hmicro
  exact ((atEpoch_eq_ok_iff hmicro).1 h).1

/-- A moved reading has a microsecond in range: amounts carry it there, and
moves of the date keep it. -/
theorem move_microsecond {r s : Reading} {m : Movement}
    (hmicro : 0 ≤ r.microsecond ∧ r.microsecond < 1000000) (h : r.move m = .ok s) :
    0 ≤ s.microsecond ∧ s.microsecond < 1000000 := by
  cases m with
  | amounts a => exact (Reading.valid_of_normalize h).2.1.microsecond
  | weekday w =>
    obtain ⟨_, _, hs⟩ := bind_eq_ok.1 h
    obtain rfl := pure_eq_ok.1 hs
    exact hmicro
  | special w =>
    obtain ⟨_, _, hs⟩ := bind_eq_ok.1 h
    obtain rfl := pure_eq_ok.1 hs
    exact hmicro

/-- An instant taken at its moved reading has a microsecond in range. -/
theorem atMoved_microsecond {t u : Instant} {m : Movement} {choice : Choice} (h : t.Consistent)
    (hu : t.atMoved (some m) choice = .ok u) : 0 ≤ u.microsecond ∧ u.microsecond < 1000000 := by
  obtain ⟨r, hr, hu⟩ := bind_eq_ok.1 hu
  rw [microsecond, (reading_of_atReading hu).1]
  exact move_microsecond h.valid.microsecond hr

theorem consistent_of_shiftReading {t u : Instant} {m : Movement} (h : t.Consistent)
    (hu : t.shiftReading m = .ok u) : u.Consistent := by
  obtain ⟨moved, hmoved, hu⟩ := bind_eq_ok.1 hu
  exact ((atEpoch_eq_ok_iff (atMoved_microsecond h hmoved)).1 hu).1

/-- Time passes from any instant: its reading is not looked at. -/
theorem consistent_of_elapse {t u : Instant} {a : Amounts} (hu : t.elapse a = .ok u) :
    u.Consistent := by
  simp only [elapse, carryMicroseconds_eq] at hu
  exact ((atEpoch_eq_ok_iff (by omega)).1 hu).1

theorem consistent_of_shiftWall {t u : Instant} {a : Amounts} (hu : t.shiftWall a = .ok u) :
    u.Consistent := by
  rw [shiftWall] at hu
  split at hu
  · exact consistent_of_elapse hu
  · obtain ⟨moved, _, hu⟩ := bind_eq_ok.1 hu
    exact consistent_of_elapse hu

/-! ## The instant that a reading means -/

/-- A valid reading means the instant of the exact time at which it is shown. -/
theorem ofReading_eq {zone : Zone} {reading : Reading} (h : reading.Valid) (choice : Choice) :
    ofReading zone reading choice =
      zone.epochOf reading choice >>= fun epoch => atEpoch zone epoch reading.microsecond := by
  have hcheck : reading.check = .ok () := (Reading.check_eq_ok_iff reading).2 h
  have hday : reading.date.toDayNumber = .ok reading.date.dayNumber :=
    (Date.toDayNumber_eq_ok_iff _ _).2 ⟨h.date, rfl⟩
  rw [ofReading, hcheck, atReading, hday]
  cases zone.epochOf reading choice with
  | error failure => rfl
  | ok epoch =>
    change (zone.offsetAt epoch >>= _) >>= _ = atEpoch zone epoch reading.microsecond
    cases hoffset : zone.offsetAt epoch with
    | error failure =>
      rw [atEpoch, hoffset]
      rfl
    | ok found => rfl

/-- A valid reading means the one consistent instant at the exact time at which it
is shown.  The instant need not have that reading: a zone may skip it. -/
theorem ofReading_eq_ok_iff {zone : Zone} {reading : Reading} {choice : Choice} {t : Instant}
    (h : reading.Valid) :
    ofReading zone reading choice = .ok t ↔
      t.Consistent ∧ t.zone = zone ∧ zone.epochOf reading choice = .ok t.epoch ∧
        t.microsecond = reading.microsecond := by
  rw [ofReading_eq h, bind_eq_ok]
  constructor
  · rintro ⟨epoch, hepoch, ht⟩
    obtain ⟨hconsistent, hzone, rfl, hmicro⟩ := (atEpoch_eq_ok_iff h.microsecond).1 ht
    exact ⟨hconsistent, hzone, hepoch, hmicro⟩
  · rintro ⟨hconsistent, hzone, hepoch, hmicro⟩
    exact ⟨t.epoch, hepoch, (atEpoch_eq_ok_iff h.microsecond).2 ⟨hconsistent, hzone, rfl, hmicro⟩⟩

/-- Moving the reading leads to the instant that the moved reading means. -/
theorem shiftReading_eq {t : Instant} {m : Movement} {reading : Reading}
    (hmove : t.reading.move m = .ok reading) (h : reading.Valid) :
    t.shiftReading m = ofReading t.zone reading .compatible := by
  have hcheck : reading.check = .ok () := (Reading.check_eq_ok_iff reading).2 h
  rw [shiftReading, atMoved, hmove, ofReading, hcheck]
  rfl

/-! ## Shifting -/

/-- An interval that counts forward moves the reading by its own amounts. -/
theorem add_forward (t : Instant) (a : Amounts) (totalDays : Option Int) :
    t.add (.interval ⟨a, false, totalDays⟩) = t.shiftReading (.amounts a) := by
  change t.shiftReading (.amounts ((Interval.mk a false totalDays).signed 1)) = _
  rw [Interval.signed_forward]

/-- Shifting in either mode and direction makes consistent instants. -/
theorem consistent_of_shift {t u : Instant} {d : Delta} {mode : ShiftMode}
    {direction : ShiftDirection} (h : t.Consistent) (hu : t.shift d mode direction = .ok u) :
    u.Consistent := by
  unfold shift at hu
  split at hu
  · exact consistent_of_shiftWall hu
  · exact consistent_of_shiftReading h hu

end Instant

end CivilTime
