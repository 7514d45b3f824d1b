import CivilTime.Proofs.DifferenceWithinZone
import CivilTime.Proofs.ReadingSums
import CivilTime.Proofs.RuleTransitions
import CivilTime.Proofs.TableLookup

/-!
# Settling a reading that a zone skips or repeats

A valid reading is the reading of one instant of a zone, of two or of none.  A
`Choice` says which instant it means.

* `instantsReading` are the instants with a reading.  Each is at an exact time at
  which the zone shows the local time of the reading, and
  `exists_mem_instantsReading` is the converse.
* `Settled` has one case for each number of instants.  In the last one, `AroundGap`
  says where the two instants lie that stand in for the skipped reading.
* `settled_of_once`, `settled_of_repeated` and `settled_of_skipped` prove the cases
  from an exact answer of the zone.
* `exists_aroundGap_ofRule` finds the instants around a gap of a regular rule, and
  `settled_of_regular` is the result for the zone of such a rule.
-/

namespace CivilTime

/-! ## Moving a reading along its clock -/

namespace Reading

variable {r : Reading}

/-- The seconds that a valid reading shows lie in its year. -/
theorem yearAt_localSeconds (h : r.Valid) : yearAt r.localSeconds = .ok r.year := by
  have hday := daySeconds_bounds h
  have hyear := Date.ordinal_in_year h.date.month_ge h.date.month_le h.date.day_ge h.date.day_le
  refine (yearAt_eq_ok_iff _ _).2 ⟨⟨h.date.year_ge, h.date.year_le⟩, ?_⟩
  rw [yearStart_eq, yearStart_eq, localSeconds, Date.dayNumber]
  simp only [date] at *
  omega

/-- Seconds within the calendar have a reading. -/
theorem exists_ofLocalSeconds {seconds : Int} (microsecond : Int)
    (hfrom : yearStart 1 ≤ seconds) (hto : seconds < yearStart 10000) :
    ∃ s, ofLocalSeconds seconds microsecond = .ok s := by
  have hcalendar : yearStart 1 = -62135596800 ∧ yearStart 10000 = 253402300800 := by decide
  have hvalid : (Date.ofDayNumber (seconds / 86400)).Valid := by
    refine (Date.valid_ofOrdinal_iff _).2 ?_
    simp only [lastOrdinal, epochOrdinal]
    omega
  have hdate := (Date.fromDayNumber_eq_ok_iff _ _).2 ⟨hvalid, Date.dayNumber_ofDayNumber _⟩
  exact ⟨_, bind_eq_ok.2 ⟨_, hdate, rfl⟩⟩

/-- Seconds added to a valid reading lead to the valid reading that shows as many
seconds more. -/
theorem normalize_plus_seconds_iff {s : Reading} (h : r.Valid) {seconds : Int} :
    (r.plus { seconds := seconds }).normalize = .ok s ↔
      s.Valid ∧ s.localSeconds = r.localSeconds + seconds ∧ s.microsecond = r.microsecond := by
  have hmicro := h.microsecond
  have htime : Amounts.timeMicros { seconds := seconds } = seconds * 1000000 := by
    simp [Amounts.timeMicros, clockSeconds]
  rw [normalize_plus_iff_of_noMonths h rfl rfl, htime, microTotal_of_valid h]
  dsimp only
  refine and_congr_right fun hs => ?_
  have hmicro' := hs.microsecond
  rw [microTotal_of_valid hs]
  omega

end Reading

/-! ## The zone of a rule alone -/

namespace ZoneData

variable {rule : ZoneRule} {x time : Int} (key : Option String)

theorem offsetAt_ofRule :
    (ofRule key rule).offsetAt x =
      rule.periodAt x >>= fun period => pure (period.offset, period.isDaylight) := by
  have hnone : firstAfter ExactEntry.since (ofRule key rule).exactTable x = none :=
    firstAfter_empty
  rw [offsetAt, hnone]
  rfl

theorem localTimeAt_ofRule : (ofRule key rule).localTimeAt time = rule.localTimeAt time := by
  have hnone : firstAfter WallEntry.limit (ofRule key rule).wallTable time = none :=
    firstAfter_empty
  rw [localTimeAt, recordedTimeAt?, hnone]
  rfl

theorem exists_offsetAt_ofRule {offset : Int} :
    (∃ isDaylight, (ofRule key rule).offsetAt x = .ok (offset, isDaylight)) ↔
      ∃ period, rule.periodAt x = .ok period ∧ period.offset = offset := by
  simp only [offsetAt_ofRule, bind_eq_ok, pure_eq_ok, Prod.mk.injEq]
  constructor
  · rintro ⟨_, period, hperiod, rfl, -⟩
    exact ⟨period, hperiod, rfl⟩
  · rintro ⟨period, hperiod, rfl⟩
    exact ⟨period.isDaylight, period, hperiod, rfl, rfl⟩

theorem timesShowing_ofRule :
    (ofRule key rule).timesShowing time = rule.timesShowing time := by
  ext x
  constructor
  · rintro ⟨⟨offset, isDaylight⟩, hfound, hx⟩
    obtain ⟨period, hperiod, rfl⟩ := (exists_offsetAt_ofRule key).1 ⟨isDaylight, hfound⟩
    exact ⟨period, hperiod, hx⟩
  · rintro ⟨period, hperiod, hx⟩
    obtain ⟨isDaylight, hfound⟩ := (exists_offsetAt_ofRule key).2 ⟨period, hperiod, rfl⟩
    exact ⟨_, hfound, hx⟩

end ZoneData

namespace Instant

variable {data : ZoneData} {transitions : Set Int} {r : Reading} {u v : Instant}

/-! ## The instants with a reading -/

/-- The instants of a zone that have a reading. -/
def instantsReading (data : ZoneData) (r : Reading) : Set Instant :=
  {u | ConsistentIn data u ∧ u.reading = r}

/-- An instant is at an exact time at which the zone shows its reading. -/
theorem epoch_mem_timesShowing (hu : u ∈ instantsReading data r) :
    u.epoch ∈ data.timesShowing r.localSeconds := by
  obtain ⟨hu, rfl⟩ := hu
  exact ⟨_, hu.offsetAt, hu.localSeconds_eq.symm⟩

/-- At an exact time at which the zone shows a valid reading, an instant has it. -/
theorem exists_mem_instantsReading (hr : r.Valid) {x : Int}
    (hx : x ∈ data.timesShowing r.localSeconds) : ∃ u ∈ instantsReading data r, u.epoch = x := by
  obtain ⟨⟨kept, isDaylight⟩, hoffset, hshows⟩ := hx
  refine ⟨⟨r, x, kept, isDaylight, .named data⟩, ⟨⟨⟨hr, ?_, hoffset⟩, rfl⟩, rfl⟩, rfl⟩
  exact hshows.symm

/-- Instants with one reading are told apart by their exact times. -/
theorem eq_of_mem_instantsReading (hu : u ∈ instantsReading data r)
    (hv : v ∈ instantsReading data r) (h : u.epoch = v.epoch) : u = v := by
  obtain ⟨hu, rfl⟩ := hu
  obtain ⟨hv, hreading⟩ := hv
  refine hu.eq_of_microEpoch hv ?_
  rw [microEpoch, microEpoch, microsecond, microsecond, h, hreading]

/-! ## The instant that a reading means -/

/-- The settled offset leads to the instant that a reading means. -/
theorem ofReading_of_settle (hr : r.Valid) {answer : LocalTime}
    (hanswer : data.localTimeAt r.localSeconds = .ok answer) {choice : Choice} {offset : Int}
    (hsettle : choice.settle r.text data.key answer = .ok offset) (hu : ConsistentIn data u)
    (hepoch : u.epoch = r.localSeconds - offset) (hmicro : u.microsecond = r.microsecond) :
    ofReading (.named data) r choice = .ok u := by
  refine (ofReading_eq_ok_iff hr).2 ⟨hu.toConsistent, hu.zone, ?_, hmicro⟩
  rw [hepoch]
  exact bind_eq_ok.2 ⟨_, hanswer, bind_eq_ok.2 ⟨_, hsettle, rfl⟩⟩

theorem ofReading_of_refused (hr : r.Valid) {answer : LocalTime}
    (hanswer : data.localTimeAt r.localSeconds = .ok answer) {choice : Choice} {failure : Failure}
    (hrefused : choice.settle r.text data.key answer = .error failure) :
    ofReading (.named data) r choice = .error failure := by
  rw [ofReading_eq hr, Zone.epochOf, hanswer]
  change ((choice.settle r.text data.key answer >>= _) >>= _) = _
  rw [hrefused]
  rfl

/-- Two instants on either side of a gap in which a reading lies.  Their readings
lie before and after that reading by the size of the gap, which is the change of
the offset at the one transition between them. -/
structure AroundGap (data : ZoneData) (transitions : Set Int) (r : Reading) (u v : Instant) :
    Prop where
  early : ConsistentIn data u
  late : ConsistentIn data v
  forward : u.kept < v.kept
  before : (r.plus { seconds := -(v.kept - u.kept) }).normalize = .ok u.reading
  after : (r.plus { seconds := v.kept - u.kept }).normalize = .ok v.reading
  transition : ∃ x ∈ transitions, u.epoch < x ∧ x ≤ v.epoch ∧
    (∃ isDaylight, data.offsetAt (x - 1) = .ok (u.kept, isDaylight)) ∧
    (∃ isDaylight, data.offsetAt x = .ok (v.kept, isDaylight)) ∧
    ∀ y ∈ transitions, u.epoch < y → y ≤ v.epoch → y = x

/-- The instants that a reading means, by how many instants have it. -/
inductive Settled (data : ZoneData) (transitions : Set Int) (r : Reading) : Prop where
  | once (u : Instant) (hread : instantsReading data r = {u})
      (hall : ∀ choice, ofReading (.named data) r choice = .ok u)
  | repeated (u v : Instant) (hread : instantsReading data r = {u, v}) (horder : u.epoch < v.epoch)
      (hcompatible : ofReading (.named data) r .compatible = .ok u)
      (hearlier : ofReading (.named data) r .earlier = .ok u)
      (hlater : ofReading (.named data) r .later = .ok v)
      (hrefuse : ofReading (.named data) r .refuse = .error (.repeatedTime r.text data.key))
  | skipped (u v : Instant) (hread : instantsReading data r = ∅)
      (haround : AroundGap data transitions r u v)
      (hcompatible : ofReading (.named data) r .compatible = .ok v)
      (hearlier : ofReading (.named data) r .earlier = .ok u)
      (hlater : ofReading (.named data) r .later = .ok v)
      (hrefuse : ofReading (.named data) r .refuse = .error (.skippedTime r.text data.key))

theorem settled_of_once (hr : r.Valid) {offset : Int}
    (hanswer : data.localTimeAt r.localSeconds = .ok (.once offset))
    (htimes : data.timesShowing r.localSeconds = {r.localSeconds - offset}) :
    Settled data transitions r := by
  have hshown : r.localSeconds - offset ∈ data.timesShowing r.localSeconds := by
    rw [htimes]
    exact rfl
  obtain ⟨u, hu, hepoch⟩ := exists_mem_instantsReading hr hshown
  have hmicro : u.microsecond = r.microsecond := congrArg Reading.microsecond hu.2
  refine .once u (Set.eq_singleton_iff_unique_mem.2 ⟨hu, fun v hv => ?_⟩) fun choice => ?_
  · have hsame := epoch_mem_timesShowing hv
    rw [htimes] at hsame
    exact eq_of_mem_instantsReading hv hu (hsame.trans hepoch.symm)
  · exact ofReading_of_settle hr hanswer rfl hu.1 hepoch hmicro

theorem settled_of_repeated (hr : r.Valid) {first second : Int}
    (hanswer : data.localTimeAt r.localSeconds = .ok (.repeated first second))
    (htimes : data.timesShowing r.localSeconds =
      {r.localSeconds - first, r.localSeconds - second})
    (hlt : r.localSeconds - first < r.localSeconds - second) : Settled data transitions r := by
  have hshown : r.localSeconds - first ∈ data.timesShowing r.localSeconds := by
    rw [htimes]
    exact Or.inl rfl
  have hshown' : r.localSeconds - second ∈ data.timesShowing r.localSeconds := by
    rw [htimes]
    exact Or.inr rfl
  obtain ⟨u, hu, hepoch⟩ := exists_mem_instantsReading hr hshown
  obtain ⟨v, hv, hepoch'⟩ := exists_mem_instantsReading hr hshown'
  have hmicro : u.microsecond = r.microsecond := congrArg Reading.microsecond hu.2
  have hmicro' : v.microsecond = r.microsecond := congrArg Reading.microsecond hv.2
  refine .repeated u v (Set.ext fun w => ⟨fun hw => ?_, ?_⟩) (by omega)
    (ofReading_of_settle hr hanswer rfl hu.1 hepoch hmicro)
    (ofReading_of_settle hr hanswer rfl hu.1 hepoch hmicro)
    (ofReading_of_settle hr hanswer rfl hv.1 hepoch' hmicro')
    (ofReading_of_refused hr hanswer rfl)
  · have hsame := epoch_mem_timesShowing hw
    rw [htimes] at hsame
    rcases hsame with hfirst | hsecond
    · exact Or.inl (eq_of_mem_instantsReading hw hu (hfirst.trans hepoch.symm))
    · exact Or.inr (eq_of_mem_instantsReading hw hv (hsecond.trans hepoch'.symm))
  · rintro (rfl | rfl)
    · exact hu
    · exact hv

theorem settled_of_skipped (hr : r.Valid) {before after : Int}
    (hanswer : data.localTimeAt r.localSeconds = .ok (.skipped before after))
    (htimes : data.timesShowing r.localSeconds = ∅) (haround : AroundGap data transitions r u v)
    (hu : u.epoch = r.localSeconds - before) (hv : v.epoch = r.localSeconds - after) :
    Settled data transitions r := by
  have hmicro : u.microsecond = r.microsecond :=
    ((Reading.normalize_plus_seconds_iff hr).1 haround.before).2.2
  have hmicro' : v.microsecond = r.microsecond :=
    ((Reading.normalize_plus_seconds_iff hr).1 haround.after).2.2
  refine .skipped u v (Set.eq_empty_iff_forall_notMem.2 fun w hw => ?_) haround
    (ofReading_of_settle hr hanswer rfl haround.late hv hmicro')
    (ofReading_of_settle hr hanswer rfl haround.early hu hmicro)
    (ofReading_of_settle hr hanswer rfl haround.late hv hmicro')
    (ofReading_of_refused hr hanswer rfl)
  have hshown := epoch_mem_timesShowing hw
  rw [htimes] at hshown
  exact hshown

/-! ## Regular rules -/

section Rule

variable {rule : ZoneRule} {d : Daylight}

/-- Two instants stand around the gap of a regular rule in which a skipped reading
lies. -/
theorem exists_aroundGap_ofRule (key : Option String) (hd : rule.daylight = some d)
    (h : d.Regular rule.standard) (hr : r.Valid) (hfirst : 2 ≤ r.year) (hlast : r.year ≤ 9998)
    {before after : Int}
    (hskipped : rule.localTimeAt r.localSeconds = .ok (.skipped before after)) :
    ∃ u v, AroundGap (.ofRule key rule) (d.transitions rule.standard) r u v ∧
      u.epoch = r.localSeconds - before ∧ v.epoch = r.localSeconds - after := by
  have hyear := r.yearAt_localSeconds hr
  obtain ⟨-, hstart, hstop⟩ := (yearAt_eq_ok_iff _ _).1 hyear
  have hcalendar := yearStart_bounds hfirst hlast
  obtain ⟨⟨hgap, hsize⟩, hearly, hlate, x, hx, hlow, hhigh, hbefore, hafter, honly⟩ :=
    ZoneRule.exists_transition_of_skipped hd h hfirst hlast hyear hskipped
  rw [← ZoneData.exists_offsetAt_ofRule key] at hearly hlate hbefore hafter
  obtain ⟨isDaylight, hearly⟩ := hearly
  obtain ⟨isDaylight', hlate⟩ := hlate
  obtain ⟨s, hs⟩ := Reading.exists_ofLocalSeconds r.microsecond
    (show yearStart 1 ≤ r.localSeconds - (before - after) by omega) (by omega)
  obtain ⟨s', hs'⟩ := Reading.exists_ofLocalSeconds r.microsecond
    (show yearStart 1 ≤ r.localSeconds + (before - after) by omega) (by omega)
  obtain ⟨hvalid, hshows, hmicro⟩ := (Reading.ofLocalSeconds_eq_ok_iff hr.microsecond).1 hs
  obtain ⟨hvalid', hshows', hmicro'⟩ := (Reading.ofLocalSeconds_eq_ok_iff hr.microsecond).1 hs'
  refine ⟨⟨s, r.localSeconds - before, after, isDaylight, .named (.ofRule key rule)⟩,
    ⟨s', r.localSeconds - after, before, isDaylight', .named (.ofRule key rule)⟩,
    ⟨⟨⟨hvalid, ?_, hearly⟩, rfl⟩, ⟨⟨hvalid', ?_, hlate⟩, rfl⟩, hgap, ?_, ?_,
      ⟨x, hx, hlow, hhigh, hbefore, hafter, honly⟩⟩, rfl, rfl⟩
  · change s.localSeconds = r.localSeconds - before + after
    omega
  · change s'.localSeconds = r.localSeconds - after + before
    omega
  · exact (Reading.normalize_plus_seconds_iff hr).2 ⟨hvalid, by dsimp only; omega, hmicro⟩
  · exact (Reading.normalize_plus_seconds_iff hr).2 ⟨hvalid', by dsimp only; omega, hmicro'⟩

/-- A zone on a regular rule settles every reading from the year 2 to 9998, and
adding and subtracting settle the moved reading compatibly. -/
theorem settled_of_regular (key : Option String) (hd : rule.daylight = some d)
    (h : d.Regular rule.standard) (hr : r.Valid) (hfirst : 2 ≤ r.year) (hlast : r.year ≤ 9998) :
    Settled (.ofRule key rule) (d.transitions rule.standard) r ∧
      ∀ (t : Instant) (delta : Delta), t.zone = .named (.ofRule key rule) →
        (t.reading.move (delta.movement false) = .ok r →
            t.add delta = ofReading (.named (.ofRule key rule)) r .compatible) ∧
          (t.reading.move (delta.movement true) = .ok r →
            t.subtract delta = ofReading (.named (.ofRule key rule)) r .compatible) := by
  have hyear := r.yearAt_localSeconds hr
  have hexact := ZoneRule.classifies_of_regular hd h hfirst hlast hyear
  rw [← ZoneData.timesShowing_ofRule key, ← ZoneData.localTimeAt_ofRule key] at hexact
  refine ⟨?_, fun t delta hzone => ⟨fun hmove => ?_, fun hmove => ?_⟩⟩
  · obtain ⟨answer, hanswer⟩ := hexact.total
    cases answer with
    | once offset => exact settled_of_once hr hanswer ((hexact.once offset).1 hanswer)
    | repeated first second =>
      obtain ⟨htimes, hlt⟩ := (hexact.repeated first second).1 hanswer
      exact settled_of_repeated hr hanswer htimes hlt
    | skipped before after =>
      have htimes := hexact.skipped.1 ⟨before, after, hanswer⟩
      obtain ⟨u, v, haround, hu, hv⟩ := exists_aroundGap_ofRule key hd h hr hfirst hlast
        ((ZoneData.localTimeAt_ofRule key).symm.trans hanswer)
      exact settled_of_skipped hr hanswer htimes haround hu hv
  · rw [← hzone, ← shiftReading_eq hmove hr]
    rfl
  · rw [← hzone, ← shiftReading_eq hmove hr]
    rfl

/-- Half past two in the morning, in the hour that central Europe skips. -/
def marchHalfPastTwo : Reading :=
  ⟨2023, 3, 26, 2, 30, 0, 0⟩

/-- The same time of day on the day before. -/
def marchSaturday : Instant where
  reading := ⟨2023, 3, 25, 2, 30, 0, 0⟩
  epoch := 1679707800
  kept := 3600
  isDaylight := false
  zone := .named (.ofRule none .centralEurope)

/-- The skipped reading is settled, and a day after the day before means the same as
the reading itself. -/
theorem settled_marchHalfPastTwo :
    Settled (.ofRule none .centralEurope)
        (ZoneRule.centralEuropeDaylight.transitions ZoneRule.centralEurope.standard)
        marchHalfPastTwo ∧
      marchSaturday.add (.interval ⟨{ days := 1 }, false, none⟩) =
        ofReading (.named (.ofRule none .centralEurope)) marchHalfPastTwo .compatible ∧
      ofReading (.named (.ofRule none .centralEurope)) marchHalfPastTwo .refuse =
        .error (.skippedTime marchHalfPastTwo.text none) := by
  have hvalid : marchHalfPastTwo.Valid := (Reading.check_eq_ok_iff _).1 rfl
  obtain ⟨hsettled, hshift⟩ := settled_of_regular none rfl ZoneRule.centralEurope_regular hvalid
    (by decide) (by decide)
  exact ⟨hsettled, (hshift marchSaturday _ rfl).1 rfl, rfl⟩

end Rule

end Instant

end CivilTime
