import CivilTime.Proofs.OutOfRange

/-!
# Which readings can be constructed

In a fixed zone every valid reading means an instant, and so it is in a zone on a
regular rule but for the ends of the calendar.

* `exists_atEpoch_ofRule_iff` is the reason: an exact time has an instant if its standard
  time and the time that the zone shows both lie in the calendar.
* `YearPlan.settle_cases` says which of a reading's exact times is taken, and
  `Daylight.inCalendar_of_shown`, `Daylight.inCalendar_before_gap` and
  `Daylight.inCalendar_after_gap_iff` find the two times there.
* `Zone.PushedOut` are the readings in a gap whose time after the gap is beyond the
  calendar, and `Zone.StandardOutside` those whose standard time is outside while
  daylight time holds over the new year.
* `Instant.exists_ofReading_iff` is the result: without the latter, the former are
  the only ones that are refused.
-/

namespace CivilTime

/-! ## Standard time within a year -/

/-- A local time that is skipped lies behind the first switch of its year, and the sides
of the gap are the two offsets. -/
theorem YearPlan.skipped_cases {p : YearPlan} (h : p.Spaced) {time before after : Int}
    (hskipped : p.localTimeAt time = .skipped before after) :
    p.first ≤ time ∧
      (before = p.inner ∧ after = p.outer ∨ before = p.outer ∧ after = p.inner) := by
  obtain ⟨x, hswitch, hafter, hbefore, hlow, hhigh⟩ := isSwitch_of_skipped h hskipped
  obtain ⟨houter, hinner, hapart⟩ := h
  unfold offsetAt at hafter hbefore
  rcases hswitch with rfl | rfl
  · rw [if_neg (by omega)] at hafter
    rw [if_pos (by omega)] at hbefore
    exact ⟨by omega, Or.inl ⟨hbefore.symm, hafter.symm⟩⟩
  · rw [if_pos (by omega)] at hafter
    rw [if_neg (by omega)] at hbefore
    exact ⟨by omega, Or.inr ⟨hbefore.symm, hafter.symm⟩⟩

/-- A choice settles on an exact time at which the local time is shown, or on one side of
a gap. -/
theorem YearPlan.settle_cases {p : YearPlan} (h : p.Spaced) {time offset : Int} {choice : Choice}
    {shown : String} {key : Option String}
    (hsettle : choice.settle shown key (p.localTimeAt time) = .ok offset) :
    (∀ before after, p.localTimeAt time ≠ .skipped before after) ∧
        time - offset + p.offsetAt (time - offset) = time ∨
      ∃ before after, p.localTimeAt time = .skipped before after ∧
        (choice = .earlier ∧ offset = before ∨ choice ≠ .earlier ∧ offset = after) := by
  have hdescribes := describes h time
  cases hanswer : p.localTimeAt time with
  | once o =>
    rw [hanswer] at hsettle hdescribes
    obtain rfl := Except.ok.inj hsettle
    have hshown : time - o ∈ {x | x + p.offsetAt x = time} := by
      rw [show _ = {time - o} from hdescribes]
      exact rfl
    exact Or.inl ⟨fun _ _ => by simp, hshown⟩
  | repeated first second =>
    rw [hanswer] at hsettle hdescribes
    have hoffset : offset = first ∨ offset = second := by
      cases choice with
      | refuse => contradiction
      | later => exact Or.inr (Except.ok.inj hsettle).symm
      | compatible => exact Or.inl (Except.ok.inj hsettle).symm
      | earlier => exact Or.inl (Except.ok.inj hsettle).symm
    have hshown : time - offset ∈ {x | x + p.offsetAt x = time} := by
      rw [hdescribes.1]
      rcases hoffset with rfl | rfl
      · exact Or.inl rfl
      · exact Or.inr rfl
    exact Or.inl ⟨fun _ _ => by simp, hshown⟩
  | skipped before after =>
    rw [hanswer] at hsettle
    refine Or.inr ⟨before, after, rfl, ?_⟩
    cases choice with
    | refuse => contradiction
    | earlier => exact Or.inl ⟨rfl, (Except.ok.inj hsettle).symm⟩
    | compatible => exact Or.inr ⟨by decide, (Except.ok.inj hsettle).symm⟩
    | later => exact Or.inr ⟨by decide, (Except.ok.inj hsettle).symm⟩

namespace Daylight

variable {d : Daylight} {standard year time x : Int}

/-- The two offsets of a plan are the standard one and that of daylight time. -/
theorem planIn_offsets (d : Daylight) (standard year : Int) :
    (d.planIn standard year).outer = standard ∧ (d.planIn standard year).inner = d.offset ∨
      (d.planIn standard year).outer = d.offset ∧ (d.planIn standard year).inner = standard := by
  by_cases hlt : (d.localBounds year).1 < (d.localBounds year).2
  · rw [planIn_of_lt hlt]
    exact Or.inl ⟨rfl, rfl⟩
  · rw [planIn_of_not_lt hlt]
    exact Or.inr ⟨rfl, rfl⟩

/-- Where a local time of the year is shown, standard time lies in the calendar as well:
it is the local time itself, or daylight time holds.  If that holds over the new year, it is
asked for. -/
theorem inCalendar_of_shown (h : d.Regular standard) (hfirst : 1 ≤ year) (hlast : year ≤ 9999)
    (hstart : yearStart year ≤ time) (hstop : time < yearStart (year + 1))
    (hx : x + (d.planIn standard year).offsetAt x = time)
    (hstandard : (d.localBounds year).1 < (d.localBounds year).2 ∨
      InCalendar (time - d.offset + standard)) : InCalendar (x + standard) := by
  have hbegin := yearStart_mono hfirst
  have hend := yearStart_mono (show year + 1 ≤ 10000 by omega)
  have hsize := h.standard
  have hsize' := h.offset
  have hyearStart := h.start year hfirst hlast
  have hyearStop := h.stop year hfirst hlast
  rw [inCalendar_iff] at *
  unfold YearPlan.offsetAt at hx
  by_cases hlt : (d.localBounds year).1 < (d.localBounds year).2
  · rw [planIn_of_lt hlt] at hx
    dsimp only at hx
    split at hx <;> omega
  · have hstandard := hstandard.resolve_left hlt
    rw [planIn_of_not_lt hlt] at hx
    dsimp only at hx
    split at hx
    · omega
    · rw [show x = time - d.offset by omega]
      exact hstandard

section Gap

variable {before after : Int}

/-- Both sides of a gap lie in the calendar where the reading is taken before it. -/
theorem inCalendar_before_gap (h : d.Regular standard) (hfirst : 1 ≤ year) (hlast : year ≤ 9999)
    (hstop : time < yearStart (year + 1))
    (hskipped : (d.planIn standard year).localTimeAt time = .skipped before after) :
    InCalendar (time - before + standard) ∧
      InCalendar (time - before + (d.planIn standard year).offsetAt (time - before)) := by
  have hinside := h.inside hfirst hlast
  have hswitch := hinside.first
  have hbegin := yearStart_mono hfirst
  have hend := yearStart_mono (show year + 1 ≤ 10000 by omega)
  have hsize := h.standard
  have hsize' := h.offset
  obtain ⟨hgap, hshown, -⟩ := YearPlan.offsetAt_of_skipped hinside.toSpaced hskipped
  obtain ⟨hlate, hsides⟩ := YearPlan.skipped_cases hinside.toSpaced hskipped
  have hoffsets := planIn_offsets d standard year
  rw [hshown, inCalendar_iff, inCalendar_iff]
  omega

/-- Taken after a gap, the reading is moved forward by its size, which may lead out of the
calendar. -/
theorem inCalendar_after_gap_iff (h : d.Regular standard) (hfirst : 1 ≤ year)
    (hlast : year ≤ 9999)
    (hskipped : (d.planIn standard year).localTimeAt time = .skipped before after) :
    InCalendar (time - after + standard) ∧
        InCalendar (time - after + (d.planIn standard year).offsetAt (time - after)) ↔
      time + (before - after) ≤ lastSecond := by
  have hinside := h.inside hfirst hlast
  have hswitch := hinside.first
  have hbegin := yearStart_mono hfirst
  have hcalendar : yearStart 10000 = lastSecond + 1 := by decide
  obtain ⟨hgap, -, hshown⟩ := YearPlan.offsetAt_of_skipped hinside.toSpaced hskipped
  obtain ⟨hlate, hsides⟩ := YearPlan.skipped_cases hinside.toSpaced hskipped
  have hoffsets := planIn_offsets d standard year
  rw [hshown, inCalendar_iff, inCalendar_iff]
  omega

end Gap

end Daylight

namespace ZoneData

variable {rule : ZoneRule} {d : Daylight} {year x : Int}

/-- Within a day of a year, a zone on a regular rule has the offset of the plan of
that year, if the standard time lies in the calendar. -/
theorem exists_offsetAt_plan_iff (key : Option String) (hd : rule.daylight = some d)
    (h : d.Regular rule.standard) (hfirst : 1 ≤ year) (hlast : year ≤ 9999)
    (hfrom : yearStart year - 86400 < x) (hto : x < yearStart (year + 1) + 86400) (offset : Int) :
    (∃ isDaylight, (ofRule key rule).offsetAt x = .ok (offset, isDaylight)) ↔
      InCalendar (x + rule.standard) ∧ (d.planIn rule.standard year).offsetAt x = offset := by
  rw [exists_offsetAt_ofRule]
  have hsame : ∀ other, yearAt (x + rule.standard) = .ok other →
      (d.periodIn rule.standard other x).offset = (d.planIn rule.standard year).offsetAt x := by
    intro other hother
    obtain ⟨⟨hfirst', hlast'⟩, -⟩ := (yearAt_eq_ok_iff _ _).1 hother
    rw [h.periodIn_offset hfirst' hlast', h.planIn_offsetAt hfirst hlast hfrom hto hother]
  constructor
  · rintro ⟨period, hperiod, rfl⟩
    obtain ⟨other, hother, rfl⟩ := (ZoneRule.periodAt_eq_ok_iff hd _ _).1 hperiod
    exact ⟨exists_yearAt_iff.1 ⟨other, hother⟩, (hsame other hother).symm⟩
  · rintro ⟨hstandard, rfl⟩
    obtain ⟨other, hother⟩ := exists_yearAt_iff.2 hstandard
    exact ⟨_, (ZoneRule.periodAt_eq_ok_iff hd _ _).2 ⟨other, hother, rfl⟩, hsame other hother⟩

/-- A zone on a rule with daylight time answers a reading with the plan of its year. -/
theorem localTimeAt_reading (key : Option String) (hd : rule.daylight = some d) {r : Reading}
    (hr : r.Valid) : (ofRule key rule).localTimeAt r.localSeconds =
      .ok ((d.planIn rule.standard r.year).localTimeAt r.localSeconds) := by
  rw [localTimeAt_ofRule, ZoneRule.localTimeAt_eq hd (r.yearAt_localSeconds hr)]

end ZoneData

namespace Instant

variable {rule : ZoneRule} {d : Daylight} {year x microsecond : Int}

/-- An exact time has an instant in a zone on a regular rule if its standard time and
the time that the zone shows both lie in the calendar. -/
theorem exists_atEpoch_ofRule_iff (key : Option String) (hd : rule.daylight = some d)
    (h : d.Regular rule.standard) (hfirst : 1 ≤ year) (hlast : year ≤ 9999)
    (hfrom : yearStart year - 86400 < x) (hto : x < yearStart (year + 1) + 86400)
    (hmicro : 0 ≤ microsecond ∧ microsecond < 1000000) :
    (∃ t, atEpoch (.named (.ofRule key rule)) x microsecond = .ok t) ↔
      InCalendar (x + rule.standard) ∧
        InCalendar (x + (d.planIn rule.standard year).offsetAt x) := by
  have hoffset := ZoneData.exists_offsetAt_plan_iff key hd h hfirst hlast hfrom hto
  constructor
  · rintro ⟨t, ht⟩
    obtain ⟨hconsistent, hzone, rfl, -⟩ := (atEpoch_eq_ok_iff hmicro).1 ht
    have hprescribed := hconsistent.prescribed
    have hshows := hconsistent.shows
    rw [offset, hzone] at hshows
    rw [hzone] at hprescribed
    obtain ⟨hstandard, hkept⟩ := (hoffset t.kept).1 ⟨t.isDaylight, hprescribed⟩
    refine ⟨hstandard, ?_⟩
    rw [hkept]
    have hin := exists_yearAt_iff.1 ⟨_, t.reading.yearAt_localSeconds hconsistent.valid⟩
    rw [hshows] at hin
    exact hin
  · rintro ⟨hstandard, hshown⟩
    obtain ⟨isDaylight, hfound⟩ := (hoffset _).2 ⟨hstandard, rfl⟩
    obtain ⟨hbegin, hend⟩ := inCalendar_iff.1 hshown
    obtain ⟨s, hs⟩ := Reading.exists_ofLocalSeconds microsecond hbegin hend
    exact ⟨_, bind_eq_ok.2 ⟨_, hfound, bind_eq_ok.2 ⟨s, hs, rfl⟩⟩⟩

end Instant

/-! ## Regular zones -/

namespace Zone

/-- A zone of one offset, or one on a regular rule. -/
inductive IsRegular : Zone → Prop
  | fixed (offset : ClockOffset) : IsRegular (.fixed offset)
  | abbreviation (name : String) (standard : ClockOffset) (isDaylight : Bool) :
    IsRegular (.abbreviation name standard isDaylight)
  | rule (key : Option String) {rule : ZoneRule} {d : Daylight} (hd : rule.daylight = some d)
    (hregular : d.Regular rule.standard) : IsRegular (.named (.ofRule key rule))

/-- The zone skips the reading, it is taken after the gap, and its time there lies behind
the end of the calendar. -/
def PushedOut (zone : Zone) (r : Reading) (choice : Choice) : Prop :=
  ∃ data before after, zone = .named data ∧
    data.localTimeAt r.localSeconds = .ok (.skipped before after) ∧
    choice ≠ .earlier ∧ lastSecond < r.localSeconds + (before - after)

/-- Daylight time holds over the new year, and where the reading is in daylight time, its
standard time lies outside the calendar. -/
def StandardOutside (zone : Zone) (r : Reading) : Prop :=
  ∃ data rule d, zone = .named data ∧ data.rule = some rule ∧ rule.daylight = some d ∧
    (d.localBounds r.year).2 ≤ (d.localBounds r.year).1 ∧
    ¬InCalendar (r.localSeconds - d.offset + rule.standard)

end Zone

namespace Instant

variable {zone : Zone} {rule : ZoneRule} {d : Daylight} {r : Reading} {choice : Choice}

/-- In a zone on a regular rule, a reading means the instant at the exact time that an
offset of the rule leads to. -/
theorem exists_settle_ofRule (key : Option String) (hd : rule.daylight = some d)
    (h : d.Regular rule.standard) (hr : r.Valid) (hchoice : choice ≠ .refuse) :
    ∃ offset : Int, offset.natAbs < 86400 ∧
      choice.settle r.text key
        ((d.planIn rule.standard r.year).localTimeAt r.localSeconds) = .ok offset ∧
      ofReading (.named (.ofRule key rule)) r choice =
        atEpoch (.named (.ofRule key rule)) (r.localSeconds - offset) r.microsecond := by
  obtain ⟨offset, hsettle, hsize⟩ :=
    (d.localTimeIn_all (P := fun offset => offset.natAbs < 86400) h.standard h.offset r.year
      r.localSeconds).exists_settle hchoice r.text key
  rw [Daylight.localTimeIn_eq] at hsettle
  refine ⟨offset, hsize, hsettle, ?_⟩
  have hepoch : (Zone.named (.ofRule key rule)).epochOf r choice = .ok (r.localSeconds - offset) :=
    bind_eq_ok.2 ⟨_, ZoneData.localTimeAt_reading key hd hr, bind_eq_ok.2 ⟨offset, hsettle, rfl⟩⟩
  rw [ofReading_eq hr, hepoch]
  rfl

/-- It has one unless it is pushed out of the calendar. -/
theorem exists_ofReading_ofRule_iff (key : Option String) (hd : rule.daylight = some d)
    (h : d.Regular rule.standard) (hr : r.Valid) (hchoice : choice ≠ .refuse)
    (hstandard : ¬(Zone.named (.ofRule key rule)).StandardOutside r) :
    (∃ t, ofReading (.named (.ofRule key rule)) r choice = .ok t) ↔
      ¬(Zone.named (.ofRule key rule)).PushedOut r choice := by
  have hyear := r.yearAt_localSeconds hr
  obtain ⟨⟨hfirst, hlast⟩, hstart, hstop⟩ := (yearAt_eq_ok_iff _ _).1 hyear
  have hinside := h.inside hfirst hlast
  have hanswer := ZoneData.localTimeAt_reading key hd hr
  have hstraight : (d.localBounds r.year).1 < (d.localBounds r.year).2 ∨
      InCalendar (r.localSeconds - d.offset + rule.standard) := by
    by_cases hlt : (d.localBounds r.year).1 < (d.localBounds r.year).2
    · exact Or.inl hlt
    · refine Or.inr (Classical.byContradiction fun houtside => hstandard ?_)
      exact ⟨_, rule, d, rfl, rfl, hd, Int.not_lt.1 hlt, houtside⟩
  obtain ⟨offset, hsize, hsettle, hmade⟩ := exists_settle_ofRule key hd h hr hchoice
  rw [hmade, exists_atEpoch_ofRule_iff key hd h hfirst hlast (by omega) (by omega) hr.microsecond]
  rcases YearPlan.settle_cases hinside.toSpaced hsettle with
    ⟨hnone, hshown⟩ | ⟨before, after, hskipped, ⟨rfl, rfl⟩ | ⟨hafter, rfl⟩⟩
  · -- The zone shows the reading itself.
    refine iff_of_true ⟨Daylight.inCalendar_of_shown h hfirst hlast hstart hstop hshown hstraight,
      ?_⟩ ?_
    · rw [hshown]
      exact exists_yearAt_iff.1 ⟨_, hyear⟩
    · rintro ⟨data, before, after, hdata, hskipped, -⟩
      obtain rfl := Zone.named.inj hdata
      rw [hanswer] at hskipped
      exact hnone before after (Except.ok.inj hskipped)
  · refine iff_of_true (Daylight.inCalendar_before_gap h hfirst hlast hstop hskipped) ?_
    rintro ⟨-, -, -, -, -, hlate, -⟩
    exact hlate rfl
  · rw [Daylight.inCalendar_after_gap_iff h hfirst hlast hskipped]
    constructor
    · rintro hin ⟨data, before', after', hdata, hskipped', -, hout⟩
      obtain rfl := Zone.named.inj hdata
      rw [hanswer, hskipped] at hskipped'
      cases Except.ok.inj hskipped'
      omega
    · intro hin
      refine Int.not_lt.1 fun hout => hin ?_
      exact ⟨_, before, offset, rfl, by rw [hanswer, hskipped], hafter, hout⟩

/-- What is refused is a malformed value. -/
theorem category_of_ofReading_ofRule (key : Option String) (hd : rule.daylight = some d)
    (h : d.Regular rule.standard) (hr : r.Valid) (hchoice : choice ≠ .refuse) {failure : Failure}
    (hfailed : ofReading (.named (.ofRule key rule)) r choice = .error failure) :
    failure.category = .value := by
  obtain ⟨offset, hsize, -, hmade⟩ := exists_settle_ofRule key hd h hr hchoice
  obtain ⟨hfrom, hto⟩ := exists_yearAt_iff.1 ⟨_, r.yearAt_localSeconds hr⟩
  have hnear : ¬(Zone.named (.ofRule key rule)).AsksBeyondWord (r.localSeconds - offset) := by
    refine Zone.not_asksBeyondWord_of_standard ?_ (by omega) (by omega)
    intro data rule' hdata hrule
    cases hdata
    obtain rfl := Option.some.inj hrule
    exact h.standard
  rw [hmade] at hfailed
  have houtcome := (atEpoch_outcome hr.microsecond).of_not hnear
  rw [hfailed] at houtcome
  cases houtcome with
  | refused hvalue _ => exact hvalue
  | beyond hfar => exact absurd hfar id

/-- In a zone of one offset every valid reading means the instant that has it. -/
theorem exists_ofReading_of_not_named (hz : ∀ data, zone ≠ .named data) (hr : r.Valid)
    (choice : Choice) : ∃ t, ofReading zone r choice = .ok t := by
  cases zone with
  | fixed offset =>
    have hshows : r.localSeconds = r.localSeconds - offset.seconds +
        (offset.seconds + Zone.daylightHour false) := by
      simp [Zone.daylightHour]
    exact ⟨⟨r, r.localSeconds - offset.seconds, offset.seconds, false, .fixed offset⟩,
      (ofReading_eq_ok_iff hr).2 ⟨⟨hr, hshows, rfl⟩, rfl, rfl, rfl⟩⟩
  | abbreviation name standard isDaylight =>
    have hshows : r.localSeconds = r.localSeconds - standard.seconds -
        Zone.daylightHour isDaylight + (standard.seconds + Zone.daylightHour isDaylight) := by
      omega
    exact ⟨⟨r, r.localSeconds - standard.seconds - Zone.daylightHour isDaylight, standard.seconds,
      isDaylight, .abbreviation name standard isDaylight⟩,
      (ofReading_eq_ok_iff hr).2 ⟨⟨hr, hshows, rfl⟩, rfl, rfl, rfl⟩⟩
  | named data => exact absurd rfl (hz data)

/-- In a zone of one offset every valid reading means an instant.  In a zone on a regular
rule so does every one whose standard time does not lie outside the calendar, except where
it is pushed out of the calendar by a gap; then it is refused as a malformed value. -/
theorem exists_ofReading_iff (hz : zone.IsRegular) (hr : r.Valid) (hchoice : choice ≠ .refuse)
    (hstandard : ¬zone.StandardOutside r) :
    ((∃ t, ofReading zone r choice = .ok t) ↔ ¬zone.PushedOut r choice) ∧
      ∀ failure, ofReading zone r choice = .error failure → failure.category = .value := by
  have hsteady : (∀ data, zone ≠ .named data) →
      ((∃ t, ofReading zone r choice = .ok t) ↔ ¬zone.PushedOut r choice) ∧
        ∀ failure, ofReading zone r choice = .error failure → failure.category = .value := by
    intro hnone
    obtain ⟨t, ht⟩ := exists_ofReading_of_not_named hnone hr choice
    refine ⟨iff_of_true ⟨t, ht⟩ ?_, fun failure hfailed => ?_⟩
    · rintro ⟨data, before, after, hdata, -⟩
      exact hnone data hdata
    · rw [ht] at hfailed
      contradiction
  cases hz with
  | fixed offset => exact hsteady fun data h => by contradiction
  | abbreviation name standard isDaylight => exact hsteady fun data h => by contradiction
  | rule key hd hregular =>
    exact ⟨exists_ofReading_ofRule_iff key hd hregular hr hchoice hstandard,
      fun failure => category_of_ofReading_ofRule key hd hregular hr hchoice⟩

/-- Half an hour before the end of the calendar. -/
def lastHalfHour : Reading :=
  ⟨9999, 12, 31, 23, 30, 0, 0⟩

/-- It is a time of central Europe, in winter. -/
theorem exists_ofReading_lastHalfHour :
    ∃ t, ofReading (.named (.ofRule none .centralEurope)) lastHalfHour .compatible = .ok t := by
  have hvalid : lastHalfHour.Valid := (Reading.check_eq_ok_iff _).1 rfl
  have hanswer : (ZoneData.ofRule none .centralEurope).localTimeAt lastHalfHour.localSeconds =
      .ok (.once 3600) := rfl
  have hstandard : ¬(Zone.named (.ofRule none .centralEurope)).StandardOutside lastHalfHour := by
    rintro ⟨data, rule, d, hdata, hrule, hd, horder, -⟩
    cases hdata
    cases hrule
    cases hd
    exact absurd horder (by decide)
  refine (exists_ofReading_iff (.rule none rfl ZoneRule.centralEurope_regular) hvalid (by decide)
    hstandard).1.2 ?_
  rintro ⟨data, before, after, hdata, hskipped, -⟩
  cases hdata
  rw [hanswer] at hskipped
  exact nomatch Except.ok.inj hskipped

/-! ## A gap at the end of the calendar -/

/-- Daylight time as far behind as standard time is ahead, until two days before the end of
the year. -/
def longGapDaylight : Daylight where
  offset := -82800
  start := ⟨.julianDay 60, 7200⟩
  stop := ⟨.julianDay 364, 0⟩

def longGap : ZoneRule where
  standard := 82800
  daylight := some longGapDaylight

theorem longGap_bounds (year : Int) :
    (longGapDaylight.localBounds year).1 =
        yearStart year + (59 + leapDay year) * 86400 + 7200 ∧
      (longGapDaylight.localBounds year).2 = yearStart year + (363 + leapDay year) * 86400 ∧
      yearStart (year + 1) = yearStart year + (365 + leapDay year) * 86400 := by
  simp only [longGapDaylight, Daylight.localBounds, Switch.inYear, RuleDay.dayIn, yearStart_eq,
    daysBeforeYear_succ, Date.dayNumber, Date.ordinal, daysBeforeMonth]
  refine ⟨?_, ?_, ?_⟩
  · simp
    omega
  · simp
    omega
  · omega

theorem longGap_regular : longGapDaylight.Regular longGap.standard := by
  refine ⟨by decide, by decide, fun year _ _ => ?_, fun year _ _ => ?_, fun year _ _ => ?_,
    fun year other _ _ _ _ => ?_⟩
  · have hyear := longGap_bounds year
    have hleap := leapDay_cases year
    omega
  · have hyear := longGap_bounds year
    have hleap := leapDay_cases year
    omega
  · have hyear := longGap_bounds year
    omega
  · have hyear := longGap_bounds year
    have hother := longGap_bounds other
    omega

/-- Noon of the last day, in the gap. -/
def lastDayNoon : Reading :=
  ⟨9999, 12, 31, 12, 0, 0, 0⟩

/-- A valid reading in a zone on a regular rule is refused where it is moved out of the
calendar. -/
theorem not_exists_ofReading_lastDayNoon :
    (Zone.named (.ofRule none longGap)).IsRegular ∧ lastDayNoon.Valid ∧
      ofReading (.named (.ofRule none longGap)) lastDayNoon .compatible = .error (.year 10000) :=
  ⟨.rule none rfl longGap_regular, (Reading.check_eq_ok_iff _).1 rfl, rfl⟩

end Instant

end CivilTime
