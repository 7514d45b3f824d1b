import CivilTime.Proofs.SettledReading

/-!
# Zones whose clock never changes

A fixed offset, an abbreviation and a named zone on a rule without daylight time
each stand at one offset, and each puts that offset together in its own way.

* `Zone.Steady` are the zones of the three kinds that stand at an offset, and
  `Zone.Alike` are zones that can take each other's place.
* `Steady.offsetAt_eq` and `Steady.epochOf_eq` say what a steady zone answers.
* `Instant.Alike` are instants that show the same in such zones.
* `ofReading_alike`, `ofTimestamp_alike`, `inZone_alike` and `shift_alike` carry
  likeness through the operations on instants.
-/

namespace CivilTime

/-! ## Steady zones -/

namespace Zone

/-- The zones of the three kinds whose clock stands at an offset. -/
inductive Steady : Zone → Int → Prop
  | fixed (offset : ClockOffset) : Steady (.fixed offset) offset.seconds
  | abbreviation (name : String) (standard : ClockOffset) (isDaylight : Bool) :
    Steady (.abbreviation name standard isDaylight) (standard.seconds + daylightHour isDaylight)
  | named (key : Option String) (text : String) (offset : Int)
    (h : ZoneRule.parse text = .ok ⟨offset, none⟩) :
    Steady (.named (.ofRule key ⟨offset, none⟩)) offset

variable {y z : Zone} {offset : Int}

/-- A steady zone answers with its offset at every exact time. -/
theorem Steady.offsetAt_eq (h : z.Steady offset) :
    ∃ kept isDaylight, (∀ epoch, z.offsetAt epoch = .ok (kept, isDaylight)) ∧
      z.fullOffset kept isDaylight = offset := by
  cases h with
  | fixed offset => exact ⟨offset.seconds, false, fun _ => rfl, Int.add_zero _⟩
  | abbreviation name standard isDaylight =>
    exact ⟨standard.seconds, isDaylight, fun _ => rfl, rfl⟩
  | named key text => exact ⟨offset, false, fun _ => ZoneData.offsetAt_ofRule key, rfl⟩

/-- A steady zone reads every reading at its offset, whatever the choice. -/
theorem Steady.epochOf_eq (h : z.Steady offset) (r : Reading) (choice : Choice) :
    z.epochOf r choice = .ok (r.localSeconds - offset) := by
  cases h with
  | fixed offset => rfl
  | abbreviation name standard isDaylight =>
    rw [epochOf, Int.sub_sub]
  | named key text =>
    rw [epochOf, ZoneData.localTimeAt_ofRule]
    rfl

/-- The same zone, or two steady zones of one offset. -/
inductive Alike : Zone → Zone → Prop
  | same (z : Zone) : Alike z z
  | steady {y z : Zone} {offset : Int} (hy : y.Steady offset) (hz : z.Steady offset) : Alike y z

theorem Alike.epochOf_eq (h : y.Alike z) (r : Reading) (choice : Choice) :
    y.epochOf r choice = z.epochOf r choice := by
  cases h with
  | same => rfl
  | steady hy hz => rw [hy.epochOf_eq, hz.epochOf_eq]

end Zone

namespace Instant

variable {t u : Instant} {y z : Zone} {offset : Int}

/-- Instants that show the same: reading, exact time and offset, in zones that are
alike. -/
structure Alike (t u : Instant) : Prop where
  reading : t.reading = u.reading
  epoch : t.epoch = u.epoch
  offset : t.offset = u.offset
  zone : t.zone.Alike u.zone

theorem Alike.refl (t : Instant) : t.Alike t :=
  ⟨rfl, rfl, rfl, .same t.zone⟩

theorem Alike.microsecond (h : t.Alike u) : t.microsecond = u.microsecond := by
  rw [Instant.microsecond, Instant.microsecond, h.reading]

/-! ## Operations in zones that are alike -/

/-- The instant of an exact time, once the zone has given its offset. -/
theorem atEpoch_of_offsetAt {kept : Int} {isDaylight : Bool} {epoch : Int}
    (h : z.offsetAt epoch = .ok (kept, isDaylight)) (microsecond : Int) :
    atEpoch z epoch microsecond =
      Reading.ofLocalSeconds (epoch + z.fullOffset kept isDaylight) microsecond >>=
        fun reading => .ok ⟨reading, epoch, kept, isDaylight, z⟩ := by
  rw [atEpoch, h]
  rfl

theorem atEpoch_alike (h : y.Alike z) (epoch microsecond : Int) :
    Together Alike (atEpoch y epoch microsecond) (atEpoch z epoch microsecond) := by
  cases h with
  | same => exact .of_refl Alike.refl _
  | steady hy hz =>
    obtain ⟨kept, isDaylight, hoffset, hfull⟩ := hy.offsetAt_eq
    obtain ⟨kept', isDaylight', hoffset', hfull'⟩ := hz.offsetAt_eq
    rw [atEpoch_of_offsetAt (hoffset epoch), atEpoch_of_offsetAt (hoffset' epoch), hfull, hfull']
    refine .bind (.of_refl (fun _ => rfl) _) ?_
    rintro reading _ rfl
    exact .ok ⟨rfl, rfl, hfull.trans hfull'.symm, .steady hy hz⟩

theorem atReading_alike (h : y.Alike z) (reading : Reading) (choice : Choice) :
    Together Alike (atReading y reading choice) (atReading z reading choice) := by
  refine .bind (.of_refl (fun _ => rfl) _) fun _ _ _ => ?_
  rw [h.epochOf_eq]
  refine .bind (.of_refl (fun _ => rfl) _) ?_
  rintro epoch _ rfl
  cases h with
  | same =>
    refine .bind (.of_refl (fun _ => rfl) _) ?_
    rintro found _ rfl
    exact .ok (Alike.refl _)
  | steady hy hz =>
    obtain ⟨kept, isDaylight, hoffset, hfull⟩ := hy.offsetAt_eq
    obtain ⟨kept', isDaylight', hoffset', hfull'⟩ := hz.offsetAt_eq
    rw [hoffset, hoffset']
    exact .ok ⟨rfl, rfl, hfull.trans hfull'.symm, .steady hy hz⟩

theorem reread_alike (h : t.Alike u) : Together Alike t.reread u.reread := by
  rw [reread, reread, h.epoch, h.microsecond]
  exact atEpoch_alike h.zone _ _

theorem ofReading_alike (h : y.Alike z) (reading : Reading) (choice : Choice) :
    Together Alike (ofReading y reading choice) (ofReading z reading choice) := by
  refine .bind (.of_refl (fun _ => rfl) _) fun _ _ _ => ?_
  exact .bind (atReading_alike h reading choice) fun _ _ => reread_alike

theorem ofTimestamp_alike (h : y.Alike z) (epoch microsecond : Int) :
    Together Alike (ofTimestamp y epoch microsecond) (ofTimestamp z epoch microsecond) := by
  unfold ofTimestamp
  split
  · exact atEpoch_alike h epoch microsecond
  · exact .error _ _

theorem inZone_alike (ht : t.Alike u) (h : y.Alike z) :
    Together Alike (t.inZone y) (u.inZone z) := by
  rw [inZone, inZone, ht.epoch, ht.microsecond]
  exact atEpoch_alike h _ _

theorem atMoved_alike (h : t.Alike u) (m : Movement) (choice : Choice) :
    Together Alike (t.atMoved (some m) choice) (u.atMoved (some m) choice) := by
  show Together Alike (t.reading.move m >>= fun r => atReading t.zone r choice)
    (u.reading.move m >>= fun r => atReading u.zone r choice)
  rw [h.reading]
  refine .bind (.of_refl (fun _ => rfl) _) ?_
  rintro reading _ rfl
  exact atReading_alike h.zone reading choice

theorem elapse_alike (h : t.Alike u) (a : Amounts) : Together Alike (t.elapse a) (u.elapse a) := by
  rw [elapse, elapse, h.epoch, h.microsecond]
  exact atEpoch_alike h.zone _ _

theorem shift_alike (h : t.Alike u) (d : Delta) (mode : ShiftMode) (direction : ShiftDirection) :
    Together Alike (t.shift d mode direction) (u.shift d mode direction) := by
  unfold shift
  split
  · unfold shiftWall
    split
    · exact elapse_alike h _
    · exact .bind (atMoved_alike h _ _) fun _ _ hmoved => elapse_alike hmoved _
  · exact .bind (atMoved_alike h _ _) fun _ _ => reread_alike

end Instant

end CivilTime
