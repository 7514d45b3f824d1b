import CivilTime.Proofs.AnsweredOffsets
import CivilTime.Proofs.CarriedReadings
import CivilTime.Proofs.SettledReading

/-!
# What results out of range are reported as

Every operation that makes an instant leads to one within the calendar or is refused as
a malformed value, with one exception: a zone whose rule has daylight time looks for the
year of the exact time before anything else, and a day that does not fit a machine word
is reported as such.

* `Zone.AsksBeyondWord` are the exact times at which a zone does so, and
  `Zone.offsetAt_eq_beyondWord_iff` says that it happens nowhere else.
* `Zone.exists_epochOf` bounds the exact times at which a zone shows a reading: they are
  never so far away.
* `Reading.category_of_move` and its like say what is refused on the way.
* `Instant.Outcome` is what is owed of an operation, and `Instant.atEpoch_outcome` is
  where every operation ends.  `Instant.outcome_of_operations` is the result for all of
  them.
-/

namespace CivilTime

/-! ## Where a zone asks for a year beyond a word -/

/-- A second whose day does not fit a machine word is reported as such, and the others
outside the calendar as malformed values. -/
theorem yearAt_eq_beyondWord_iff {second : Int} :
    yearAt second = .error .beyondWord ↔ fitsWord (second / 86400 + epochOrdinal) = false := by
  rw [yearAt, checkedYearOfOrdinal]
  cases fitsWord (second / 86400 + epochOrdinal) with
  | false => simp
  | true =>
    simp only [Bool.not_true, Bool.false_eq_true, if_false, reduceCtorEq, iff_false]
    split
    · simp
    · split <;> simp

theorem category_of_yearAt {second : Int} {failure : Failure}
    (h : yearAt second = .error failure) :
    failure = .beyondWord ∨ failure.category = .value := by
  rw [yearAt, checkedYearOfOrdinal] at h
  split at h
  · cases h
    exact Or.inl rfl
  split at h
  · cases h
    exact Or.inr rfl
  split at h
  · cases h
    exact Or.inr rfl
  · contradiction

namespace Zone

variable {zone : Zone} {x : Int} {failure : Failure}

/-- The zone has no name, or its data is read. -/
def IsRead (zone : Zone) : Prop :=
  ∀ data, zone = .named data → data.IsRead

/-- After the recorded transitions, a rule with daylight time asks for the year of a
second whose day does not fit a machine word. -/
def AsksBeyondWord (zone : Zone) (x : Int) : Prop :=
  ∃ data rule, zone = .named data ∧ firstAfter ExactEntry.since data.exactTable x = none ∧
    data.rule = some rule ∧ rule.daylight.isSome ∧
    fitsWord ((x + rule.standard) / 86400 + epochOrdinal) = false

theorem offsetAt_eq_error_iff :
    zone.offsetAt x = .error failure ↔
      ∃ data rule, zone = .named data ∧ firstAfter ExactEntry.since data.exactTable x = none ∧
        data.rule = some rule ∧ rule.daylight.isSome ∧
        yearAt (x + rule.standard) = .error failure := by
  cases zone with
  | fixed offset => simp [offsetAt]
  | abbreviation name standard isDaylight => simp [offsetAt]
  | named data =>
    show data.offsetAt x = .error failure ↔ _
    rw [ZoneData.offsetAt_eq_error_iff]
    simp [ZoneRule.periodAt_eq_error_iff]

theorem offsetAt_eq_beyondWord_iff :
    zone.offsetAt x = .error .beyondWord ↔ zone.AsksBeyondWord x := by
  simp only [offsetAt_eq_error_iff, yearAt_eq_beyondWord_iff, AsksBeyondWord]

theorem category_of_offsetAt (h : zone.offsetAt x = .error failure) :
    failure = .beyondWord ∨ failure.category = .value := by
  obtain ⟨data, rule, -, -, -, -, hyear⟩ := offsetAt_eq_error_iff.1 h
  exact category_of_yearAt hyear

theorem daylightHour_bounds (isDaylight : Bool) :
    0 ≤ daylightHour isDaylight ∧ daylightHour isDaylight ≤ 3600 := by
  cases isDaylight with
  | false => decide
  | true => decide

/-- Within sixty years of the calendar, every day fits a machine word. -/
theorem not_asksBeyondWord_of_standard
    (h : ∀ data rule, zone = .named data → data.rule = some rule → rule.standard.natAbs < 86400)
    (hfrom : firstSecond - 2147483648 ≤ x) (hto : x ≤ lastSecond + 2147483648) :
    ¬zone.AsksBeyondWord x := by
  rintro ⟨data, rule, hzone, -, hrule, -, hword⟩
  have hstandard := h data rule hzone hrule
  simp only [fitsWord, Bool.and_eq_false_iff, decide_eq_false_iff_not] at hword
  unfold firstSecond lastSecond epochOrdinal at *
  omega

theorem not_asksBeyondWord (h : zone.IsRead) (hfrom : firstSecond - 2147483648 ≤ x)
    (hto : x ≤ lastSecond + 2147483648) : ¬zone.AsksBeyondWord x :=
  not_asksBeyondWord_of_standard
    (fun data _ hzone hrule => ((h data hzone).rule_inRange hrule).standard) hfrom hto

/-- The offset that a zone has at an exact time fits four bytes. -/
theorem fits_fullOffset (h : zone.IsRead) {kept : Int} {isDaylight : Bool}
    (hoffset : zone.offsetAt x = .ok (kept, isDaylight)) :
    ZoneFile.Fits 4 (zone.fullOffset kept isDaylight) := by
  have hhour := daylightHour_bounds isDaylight
  cases zone with
  | fixed offset =>
    have hday := offset.withinDay
    cases hoffset
    show ZoneFile.Fits 4 (offset.seconds + daylightHour false)
    unfold ZoneFile.Fits
    omega
  | abbreviation name standard dst =>
    have hday := standard.withinDay
    cases hoffset
    show ZoneFile.Fits 4 (standard.seconds + daylightHour isDaylight)
    unfold ZoneFile.Fits
    omega
  | named data => exact (h data rfl).offsetAt_fits hoffset

/-- A zone shows every valid reading at an exact time near the calendar. -/
theorem exists_epochOf (h : zone.IsRead) {r : Reading} (hr : r.Valid) {choice : Choice}
    (hchoice : choice ≠ .refuse) :
    ∃ epoch, zone.epochOf r choice = .ok epoch ∧ firstSecond - 2147483648 ≤ epoch ∧
      epoch ≤ lastSecond + 2147483648 := by
  have hyear := r.yearAt_localSeconds hr
  obtain ⟨hfrom, hto⟩ := exists_yearAt_iff.1 ⟨_, hyear⟩
  cases zone with
  | fixed offset =>
    have hoffset := offset.withinDay
    exact ⟨_, rfl, by omega, by omega⟩
  | abbreviation name standard isDaylight =>
    have hoffset := standard.withinDay
    have hhour := daylightHour_bounds isDaylight
    exact ⟨_, rfl, by omega, by omega⟩
  | named data =>
    cases hanswer : data.localTimeAt r.localSeconds with
    | error failure =>
      obtain ⟨-, rule, -, hfailed⟩ := ZoneData.localTimeAt_eq_error_iff.1 hanswer
      obtain ⟨-, hfailed⟩ := ZoneRule.localTimeAt_eq_error_iff.1 hfailed
      rw [hyear] at hfailed
      contradiction
    | ok answer =>
      obtain ⟨offset, hsettle, hlow, hhigh⟩ :=
        ((h data rfl).localTimeAt_all hanswer).exists_settle hchoice r.text data.key
      refine ⟨r.localSeconds - offset, ?_, by omega, by omega⟩
      exact bind_eq_ok.2 ⟨answer, hanswer, bind_eq_ok.2 ⟨offset, hsettle, rfl⟩⟩

end Zone

/-! ## What is refused on the way -/

namespace Reading

variable {r s : Reading} {m : Movement} {failure : Failure}

/-- A movement that cannot be made is a malformed value. -/
theorem category_of_move (h : r.move m = .error failure) : failure.category = .value := by
  cases m with
  | amounts a => exact category_of_normalize h
  | weekday w =>
    rcases bind_eq_error.1 h with h | ⟨date, -, h⟩
    · rcases bind_eq_error.1 h with h | ⟨day, -, h⟩
      · exact Date.category_of_toDayNumber h
      · exact Date.category_of_fromDayNumber h
    · contradiction
  | special w =>
    rcases bind_eq_error.1 h with h | ⟨date, -, h⟩
    · rw [SpecialMove.apply] at h
      split at h
      · rcases bind_eq_error.1 h with h | ⟨day, -, h⟩
        · exact Date.category_of_toDayNumber h
        · exact Date.category_of_fromDayNumber h
      · contradiction
      · contradiction
    · contradiction

/-- A movement leads to a valid reading, unless its date does not exist: moves by months
may leave the calendar. -/
theorem valid_of_move (hr : r.Valid) (h : r.move m = .ok s) (hdate : s.date.Valid) : s.Valid := by
  have honDate : ∀ date, (r.onDate date).date.Valid → (r.onDate date).Valid :=
    fun date hvalid => ⟨hvalid, hr.hour, hr.minute, hr.second, hr.microsecond⟩
  cases m with
  | amounts a => exact (valid_of_normalize h).2.1
  | weekday w =>
    obtain ⟨date, -, h⟩ := bind_eq_ok.1 h
    obtain rfl := pure_eq_ok.1 h
    exact honDate date hdate
  | special w =>
    obtain ⟨date, -, h⟩ := bind_eq_ok.1 h
    obtain rfl := pure_eq_ok.1 h
    exact honDate date hdate

end Reading

namespace Instant

variable {t u : Instant} {zone : Zone} {r : Reading} {choice : Choice} {failure : Failure}

/-! ## The instant of an exact time -/

/-- What is owed of an operation that makes an instant: a consistent one or a refusal,
and a number beyond a machine word exactly if `beyondWord` holds. -/
inductive Outcome (beyondWord : Prop) : Except Failure Instant → Prop
  | made {t : Instant} (hconsistent : t.Consistent) (hnear : ¬beyondWord) :
    Outcome beyondWord (.ok t)
  | refused {failure : Failure} (hvalue : failure.category = .value) (hnear : ¬beyondWord) :
    Outcome beyondWord (.error failure)
  | beyond (hfar : beyondWord) : Outcome beyondWord (.error .beyondWord)

theorem Outcome.of_not {P : Prop} {x : Except Failure Instant} (h : Outcome P x) (hp : ¬P) :
    Outcome False x := by
  cases h with
  | made hconsistent _ => exact .made hconsistent id
  | refused hvalue _ => exact .refused hvalue id
  | beyond hfar => exact absurd hfar hp

/-- Every operation ends in the instant of an exact time, and there the zone may ask for a
year beyond a word. -/
theorem atEpoch_outcome {epoch microsecond : Int}
    (hmicro : 0 ≤ microsecond ∧ microsecond < 1000000) :
    Outcome (zone.AsksBeyondWord epoch) (atEpoch zone epoch microsecond) := by
  by_cases hfar : zone.AsksBeyondWord epoch
  · have hoffset := Zone.offsetAt_eq_beyondWord_iff.2 hfar
    have hfailed : atEpoch zone epoch microsecond = .error .beyondWord :=
      bind_eq_error.2 (Or.inl hoffset)
    rw [hfailed]
    exact .beyond hfar
  · cases hmade : atEpoch zone epoch microsecond with
    | ok t => exact .made ((atEpoch_eq_ok_iff hmicro).1 hmade).1 hfar
    | error failure =>
      rcases bind_eq_error.1 hmade with hoffset | ⟨found, -, hreading⟩
      · rcases Zone.category_of_offsetAt hoffset with rfl | hvalue
        · exact absurd (Zone.offsetAt_eq_beyondWord_iff.1 hoffset) hfar
        · exact .refused hvalue hfar
      · rcases bind_eq_error.1 hreading with hreading | ⟨reading, -, hnone⟩
        · exact .refused (Reading.category_of_ofLocalSeconds hreading) hfar
        · contradiction

theorem ofTimestamp_outcome {epoch microsecond : Int}
    (hmicro : 0 ≤ microsecond ∧ microsecond < 1000000) :
    Outcome (zone.AsksBeyondWord epoch) (ofTimestamp zone epoch microsecond) := by
  have hmade : ofTimestamp zone epoch microsecond = atEpoch zone epoch microsecond := if_pos hmicro
  rw [hmade]
  exact atEpoch_outcome hmicro

/-! ## Operations that stay near the calendar -/

/-- An instant lies near the calendar. -/
theorem Consistent.epoch_bounds (ht : t.Consistent) (hz : t.zone.IsRead) :
    firstSecond - 2147483648 ≤ t.epoch ∧ t.epoch ≤ lastSecond + 2147483648 := by
  obtain ⟨hfrom, hto⟩ := exists_yearAt_iff.1 ⟨_, t.reading.yearAt_localSeconds ht.valid⟩
  have hshows := ht.shows
  have hoffset := Zone.fits_fullOffset hz ht.prescribed
  unfold ZoneFile.Fits at hoffset
  unfold offset at hshows
  omega

theorem inZone_outcome (ht : t.Consistent) (htz : t.zone.IsRead) (hz : zone.IsRead) :
    Outcome False (t.inZone zone) := by
  obtain ⟨hfrom, hto⟩ := ht.epoch_bounds htz
  exact (atEpoch_outcome ht.valid.microsecond).of_not (Zone.not_asksBeyondWord hz hfrom hto)

theorem ofReading_outcome (hz : zone.IsRead) (hr : r.Valid) (hchoice : choice ≠ .refuse) :
    Outcome False (ofReading zone r choice) := by
  obtain ⟨epoch, hepoch, hfrom, hto⟩ := Zone.exists_epochOf hz hr hchoice
  have hmade : ofReading zone r choice = atEpoch zone epoch r.microsecond := by
    rw [ofReading_eq hr, hepoch]
    rfl
  rw [hmade]
  exact (atEpoch_outcome hr.microsecond).of_not (Zone.not_asksBeyondWord hz hfrom hto)

/-- A reading at which no instant can be taken is a malformed value. -/
theorem category_of_atReading (hz : zone.IsRead) (hr : r.date.Valid → r.Valid)
    (hchoice : choice ≠ .refuse) (h : atReading zone r choice = .error failure) :
    failure.category = .value := by
  rcases bind_eq_error.1 h with hday | ⟨day, hday, h⟩
  · exact Date.category_of_toDayNumber hday
  have hvalid := hr ((Date.toDayNumber_eq_ok_iff _ _).1 hday).1
  obtain ⟨epoch, hepoch, hfrom, hto⟩ := Zone.exists_epochOf hz hvalid hchoice
  rw [hepoch] at h
  rcases bind_eq_error.1 h with h | ⟨_, hsame, h⟩
  · contradiction
  obtain rfl := Except.ok.inj hsame
  rcases bind_eq_error.1 h with hoffset | ⟨found, -, hnone⟩
  · rcases Zone.category_of_offsetAt hoffset with rfl | hvalue
    · exact absurd (Zone.offsetAt_eq_beyondWord_iff.1 hoffset)
        (Zone.not_asksBeyondWord hz hfrom hto)
    · exact hvalue
  · contradiction

theorem category_of_atMoved {m : Movement} (ht : t.Consistent) (hz : t.zone.IsRead)
    (h : t.atMoved (some m) .compatible = .error failure) : failure.category = .value := by
  rcases bind_eq_error.1 h with hmove | ⟨reading, hmove, h⟩
  · exact Reading.category_of_move hmove
  · exact category_of_atReading hz (Reading.valid_of_move ht.valid hmove) (by decide) h

/-- Moving the reading never asks for a year beyond a word. -/
theorem shiftReading_outcome (ht : t.Consistent) (hz : t.zone.IsRead) (m : Movement) :
    Outcome False (t.shiftReading m) := by
  cases hmoved : t.atMoved (some m) .compatible with
  | error failure =>
    have hfailed : t.shiftReading m = .error failure := bind_eq_error.2 (Or.inl hmoved)
    rw [hfailed]
    exact .refused (category_of_atMoved ht hz hmoved) id
  | ok moved =>
    obtain ⟨reading, hmove, hat⟩ := bind_eq_ok.1 hmoved
    have hdate : reading.date.Valid := by
      obtain ⟨day, hday, -⟩ := bind_eq_ok.1 hat
      exact ((Date.toDayNumber_eq_ok_iff _ _).1 hday).1
    have hvalid := Reading.valid_of_move ht.valid hmove hdate
    rw [shiftReading_eq hmove hvalid]
    exact ofReading_outcome hz hvalid (by decide)

/-! ## Elapsed time -/

theorem elapse_outcome (t : Instant) (a : Amounts) :
    Outcome (t.zone.AsksBeyondWord ((t.microEpoch + a.timeMicros) / 1000000)) (t.elapse a) := by
  rw [elapse_eq]
  exact atEpoch_outcome (by omega)

/-- Elapsed time leads as far as its count, from the moved date on. -/
def ElapsesBeyondWord (t : Instant) (a : Amounts) : Prop :=
  ∃ start, t.dateMoved a = .ok start ∧
    t.zone.AsksBeyondWord ((start.microEpoch + a.timeMicros) / 1000000)

theorem zone_of_dateMoved {a : Amounts} (h : t.dateMoved a = .ok u) : u.zone = t.zone := by
  rw [dateMoved] at h
  split at h
  · cases h
    rfl
  · obtain ⟨reading, -, hat⟩ := bind_eq_ok.1 h
    exact (reading_of_atReading hat).2

theorem shiftWall_outcome (ht : t.Consistent) (hz : t.zone.IsRead) (a : Amounts) :
    Outcome (t.ElapsesBeyondWord a) (t.shiftWall a) := by
  rw [shiftWall_eq]
  cases hmoved : t.dateMoved a with
  | error failure =>
    have hnear : ¬t.ElapsesBeyondWord a := by
      rintro ⟨start, hstart, -⟩
      rw [hmoved] at hstart
      contradiction
    refine .refused ?_ hnear
    rw [dateMoved] at hmoved
    split at hmoved
    · contradiction
    · exact category_of_atMoved ht hz hmoved
  | ok start =>
    have hfar : t.ElapsesBeyondWord a ↔
        start.zone.AsksBeyondWord ((start.microEpoch + a.timeMicros) / 1000000) := by
      rw [zone_of_dateMoved hmoved]
      constructor
      · rintro ⟨other, hother, hfar⟩
        obtain rfl := Except.ok.inj (hmoved.symm.trans hother)
        exact hfar
      · exact fun hfar => ⟨start, hmoved, hfar⟩
    rw [hfar]
    exact elapse_outcome start a

/-- An instant within the calendar or a refusal as a malformed value is what every
operation ends in, but for a timestamp or elapsed time so far away that a rule with
daylight time asks for a year beyond a machine word. -/
theorem outcome_of_operations (ht : t.Consistent) (htz : t.zone.IsRead) (hz : zone.IsRead) :
    (∀ epoch microsecond, 0 ≤ microsecond ∧ microsecond < 1000000 →
      Outcome (zone.AsksBeyondWord epoch) (ofTimestamp zone epoch microsecond)) ∧
    Outcome False (t.inZone zone) ∧
    (∀ delta direction, Outcome False (t.shift delta .absolute direction)) ∧
    (∀ delta direction, (∀ i, delta ≠ .interval i) →
      Outcome False (t.shift delta .wall direction)) ∧
    (∀ i direction,
      Outcome (t.ElapsesBeyondWord (i.signed direction.factor))
        (t.shift (.interval i) .wall direction)) := by
  refine ⟨fun epoch microsecond hmicro => ofTimestamp_outcome hmicro,
    inZone_outcome ht htz hz, fun delta direction => shiftReading_outcome ht htz _,
    fun delta direction hdelta => ?_, fun i direction => ?_⟩
  · cases delta with
    | interval i => exact absurd rfl (hdelta i)
    | weekday m => exact shiftReading_outcome ht htz _
    | special m => exact shiftReading_outcome ht htz _
  · rw [shift_wall_eq]
    exact shiftWall_outcome ht htz _

/-! ## An example -/

theorem isRead_eastern : eastern.IsRead :=
  @ZoneData.IsRead.rule none "EST5EDT,M3.2.0,M11.1.0" _ (by decide +kernel)

/-- More hours than any calendar has. -/
def quadrillionHours : Interval where
  amounts := { hours := 1000000000000000 }
  inverted := false
  totalDays := none

/-- Moving to the weekday of another age is refused, and so many hours are reported as a
number beyond a machine word. -/
theorem outcome_of_operations_sundayHalfPastOne :
    Outcome False (sundayHalfPastOne.addWall (.weekday ⟨.monday, 1000000000000000⟩)) ∧
      sundayHalfPastOne.addWall (.interval quadrillionHours) = .error .beyondWord := by
  have hzone : (Zone.named eastern).IsRead := by
    intro data hdata
    cases hdata
    exact isRead_eastern
  obtain ⟨-, -, -, hmove, hinterval⟩ :=
    outcome_of_operations consistent_sundayHalfPastOne hzone hzone
  have hfar : sundayHalfPastOne.ElapsesBeyondWord (quadrillionHours.signed 1) :=
    ⟨sundayHalfPastOne, rfl, eastern, _, rfl, rfl, rfl, rfl, by decide⟩
  refine ⟨hmove _ .forward fun i hi => by contradiction, ?_⟩
  have houtcome := hinterval quadrillionHours .forward
  generalize hsum : sundayHalfPastOne.shift (.interval quadrillionHours) .wall .forward = sum at *
  cases houtcome with
  | made _ hnear => exact absurd hfar hnear
  | refused _ hnear => exact absurd hfar hnear
  | beyond _ => exact hsum

/-- A timestamp whose day does not fit a machine word is not reported as a malformed
value. -/
theorem not_outcome_farTimestamp :
    ofTimestamp (.named eastern) 1000000000000000000 0 = .error .beyondWord ∧
      Failure.beyondWord.category.isValue = false :=
  ⟨by rfl, rfl⟩

end Instant

end CivilTime
