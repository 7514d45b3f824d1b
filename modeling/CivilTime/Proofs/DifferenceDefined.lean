import CivilTime.Proofs.DifferenceAcrossZones
import CivilTime.Proofs.DifferenceDirection
import CivilTime.Proofs.DifferenceWithinZone
import CivilTime.Proofs.ReadZones

/-!
# Which differences are defined

Almost any two instants have a difference.  The exceptions lie at the two ends of the
calendar, and each kind of difference has its own.

* `acrossZones_eq_error_iff` is about instants that are not in one named zone.  The later
  one is read on the clock of the earlier one, and may lie outside the calendar there
  (`ReadOutside`).
* `sameZone_eq_error_iff` is about instants of one named zone.  Where their daylight flags
  agree, a span of a day or more has the zone asked for a transition near its end, and the
  second for which it is asked may lie outside the calendar (`AskedOutside`).
* `exists_diff_iff` is the result: apart from the second exception, only the first is
  refused, as a date out of range.
-/

namespace CivilTime

/-- Seconds have no reading exactly if they lie outside the calendar. -/
theorem Reading.ofLocalSeconds_eq_error_iff {seconds microsecond : Int} {failure : Failure} :
    ofLocalSeconds seconds microsecond = .error failure ↔
      ¬InCalendar seconds ∧ failure = .date := by
  have hdays : 1 ≤ seconds / 86400 + epochOrdinal ∧ seconds / 86400 + epochOrdinal ≤ lastOrdinal ↔
      InCalendar seconds := by
    unfold InCalendar firstSecond lastSecond epochOrdinal lastOrdinal
    omega
  rw [ofLocalSeconds, bind_pure_eq_error, Date.fromDayNumber]
  by_cases hin : InCalendar seconds
  · rw [if_pos (hdays.2 hin)]
    simp [hin]
  · rw [if_neg (fun hday => hin (hdays.1 hday))]
    simp [hin, eq_comm]

namespace Instant

variable {data : ZoneData} {a b one two : Instant} {exchanged : Bool} {failure : Failure}

/-- Two instants in order are the two instants. -/
theorem inOrder_cases (h : a.inOrder b = (one, two, exchanged)) :
    one = a ∧ two = b ∨ one = b ∧ two = a := by
  unfold inOrder at h
  generalize (if a.zone.sameNamed b.zone then b.reading.before a.reading
    else b.earlierThan a) = exchange at h
  cases exchange with
  | true =>
    cases h
    exact Or.inr ⟨rfl, rfl⟩
  | false =>
    cases h
    exact Or.inl ⟨rfl, rfl⟩

/-! ## Across zones -/

/-- The later of two instants that are not in one named zone lies outside the calendar on
the clock of the earlier one. -/
def ReadOutside (a b : Instant) : Prop :=
  a.zone.sameNamed b.zone = false ∧
    ∃ one two exchanged, a.inOrder b = (one, two, exchanged) ∧
      ¬InCalendar (two.epoch + one.offset)

/-- On a clock that stands still, an exact time has no instant exactly if the clock shows a
time outside the calendar. -/
theorem atEpoch_eq_error_iff_of_standsAt {zone : Zone} {offset epoch microsecond : Int}
    (h : StandsAt zone offset) :
    atEpoch zone epoch microsecond = .error failure ↔
      ¬InCalendar (epoch + offset) ∧ failure = .date := by
  obtain ⟨kept, isDaylight, hoffset, hfull⟩ := h epoch
  rw [atEpoch, hoffset, ← Reading.ofLocalSeconds_eq_error_iff, ← hfull]
  exact bind_pure_eq_error

/-- Instants that are not in one named zone have no difference exactly if the later one
lies outside the calendar on the clock of the earlier one. -/
theorem acrossZones_eq_error_iff (hone : one.Consistent) (hclock : one.HasClock)
    (horder : a.inOrder b = (one, two, exchanged)) :
    acrossZones a b = .error failure ↔
      ¬InCalendar (two.epoch + one.offset) ∧ failure = .date := by
  obtain ⟨zone, hzone, hstands⟩ := clockZone_standsAt hone hclock
  rw [acrossZones, horder]
  dsimp only
  rw [hzone, ← atEpoch_eq_error_iff_of_standsAt hstands]
  exact bind_pure_eq_error

theorem diff_eq_error_iff_of_acrossZones (ha : a.Consistent) (hb : b.Consistent)
    (haclock : a.HasClock) (hbclock : b.HasClock) (hzones : a.zone.sameNamed b.zone = false) :
    a.diff b = .error failure ↔ ReadOutside a b ∧ failure = .date := by
  obtain ⟨one, two, exchanged, horder⟩ :
      ∃ one two exchanged, a.inOrder b = (one, two, exchanged) := ⟨_, _, _, rfl⟩
  have hone : one.Consistent ∧ one.HasClock := by
    rcases inOrder_cases horder with ⟨rfl, -⟩ | ⟨rfl, -⟩
    · exact ⟨ha, haclock⟩
    · exact ⟨hb, hbclock⟩
  have houtside : ReadOutside a b ↔ ¬InCalendar (two.epoch + one.offset) := by
    simp [ReadOutside, hzones, horder]
  rw [diff_eq hzones, bind_pure_eq_error, acrossZones_eq_error_iff hone.1 hone.2 horder, houtside]

/-! ## Within a named zone -/

/-- Of two instants of one named zone at one daylight flag, a day or more apart, the zone is
asked for a transition at a second whose standard time lies outside the calendar. -/
def AskedOutside (a b : Instant) : Prop :=
  ∃ data rule one two exchanged, a.zone = .named data ∧ b.zone = .named data ∧
    a.inOrder b = (one, two, exchanged) ∧ one.isDaylight = two.isDaylight ∧
    86400 ≤ two.epoch - one.epoch ∧
    firstAfter ExactEntry.since data.exactTable (two.epoch - two.kept) = none ∧
    data.rule = some rule ∧ rule.daylight.isSome ∧
    ¬InCalendar (two.epoch - two.kept + rule.standard)

/-- Instants of one named zone have no difference exactly if a span of a day or more has
the zone asked where it has no answer. -/
theorem sameZone_eq_error_iff (htwo : ConsistentIn data two)
    (horder : a.inOrder b = (one, two, exchanged)) :
    sameZone data a b = .error failure ↔
      one.isDaylight = two.isDaylight ∧ 86400 ≤ two.epoch - one.epoch ∧
        data.periodAt (two.epoch - two.kept) = .error failure := by
  rw [sameZone_eq horder, map_eq_error]
  cases hbefore : one.isDaylight <;> cases hafter : two.isDaylight
  case true.false =>
    rw [correction_of_stops hbefore hafter]
    simp
  case false.true =>
    obtain ⟨period, hperiod⟩ := exists_periodAt_of_offsetAt htwo.offsetAt
    rw [correction_of_starts hbefore hafter, hperiod]
    simp [Except.map]
  all_goals
    rw [correction_of_sameFlag (hbefore.trans hafter.symm)]
    by_cases hlong : 86400 ≤ two.epoch - one.epoch
    · rw [if_pos hlong, map_eq_error]
      simp [hlong]
    · rw [if_neg hlong]
      simp [hlong]

theorem exists_diff_error_iff_of_sameZone (ha : ConsistentIn data a) (hb : ConsistentIn data b) :
    (∃ failure, a.diff b = .error failure) ↔ AskedOutside a b := by
  obtain ⟨one, two, exchanged, horder⟩ :
      ∃ one two exchanged, a.inOrder b = (one, two, exchanged) := ⟨_, _, _, rfl⟩
  have htwo : ConsistentIn data two := by
    rcases inOrder_cases horder with ⟨-, rfl⟩ | ⟨-, rfl⟩
    · exact hb
    · exact ha
  simp only [diff_named ha.zone hb.zone, sameZone_eq_error_iff htwo horder,
    ZoneData.periodAt_eq_error_iff]
  constructor
  · rintro ⟨failure, hflag, hlong, hlast, rule, hrule, hfailed⟩
    obtain ⟨hdaylight, houtside⟩ := ZoneRule.exists_periodAt_error_iff.1 ⟨failure, hfailed⟩
    exact ⟨data, rule, one, two, exchanged, ha.zone, hb.zone, horder, hflag, hlong, hlast, hrule,
      hdaylight, houtside⟩
  · rintro ⟨data', rule, one', two', exchanged', hzone, -, horder', hflag, hlong, hlast, hrule,
      hdaylight, houtside⟩
    obtain rfl := Zone.named.inj (ha.zone.symm.trans hzone)
    cases horder.symm.trans horder'
    obtain ⟨failure, hfailed⟩ := ZoneRule.exists_periodAt_error_iff.2 ⟨hdaylight, houtside⟩
    exact ⟨failure, hflag, hlong, hlast, rule, hrule, hfailed⟩

/-! ## The result -/

/-- Two instants have a difference, unless they are not in one named zone and the later one
lies outside the calendar on the clock of the earlier one; then it is refused as a date out
of range.  This leaves aside spans within a named zone for whose end the zone is asked
outside the calendar. -/
theorem exists_diff_iff (ha : a.Consistent) (hb : b.Consistent) (haclock : a.HasClock)
    (hbclock : b.HasClock) (hasked : ¬AskedOutside a b) :
    ((∃ interval notes, a.diff b = .ok (interval, notes)) ↔ ¬ReadOutside a b) ∧
      ∀ failure, a.diff b = .error failure → failure = .date := by
  have hexists : (∃ interval notes, a.diff b = .ok (interval, notes)) ↔
      ∀ failure, a.diff b ≠ .error failure := by
    rw [← exists_eq_ok_iff, Prod.exists]
  rw [hexists]
  cases hzones : a.zone.sameNamed b.zone with
  | false =>
    simp only [ne_eq, diff_eq_error_iff_of_acrossZones ha hb haclock hbclock hzones]
    simp
  | true =>
    obtain ⟨data, hazone, hbzone⟩ := exists_named_of_sameNamed hzones
    have hnever : ∀ failure, a.diff b ≠ .error failure := fun failure hfailed =>
      hasked ((exists_diff_error_iff_of_sameZone ⟨ha, hazone⟩ ⟨hb, hbzone⟩).1 ⟨failure, hfailed⟩)
    have hsame : ¬ReadOutside a b := fun h => by simp [h.1] at hzones
    exact ⟨iff_of_true hnever hsame, fun failure hfailed => absurd hfailed (hnever failure)⟩

/-! ## The last night of the calendar -/

/-- Half an hour before the end of the calendar, on a clock an hour ahead. -/
def lastNight : Instant where
  reading := ⟨9999, 12, 31, 23, 30, 0, 0⟩
  epoch := 253402295400
  kept := 3600
  isDaylight := false
  zone := .fixed ⟨3600, by decide⟩

/-- A quarter of an hour later, where it is still evening. -/
def lastEvening : Instant where
  reading := ⟨9999, 12, 31, 17, 45, 0, 0⟩
  epoch := 253402296300
  kept := -18000
  isDaylight := false
  zone := .named eastern

theorem consistent_lastNight : lastNight.Consistent :=
  ⟨(Reading.check_eq_ok_iff _).1 rfl, rfl, rfl⟩

theorem hasClock_lastNight : lastNight.HasClock := by
  intro data hzone
  contradiction

/-- It is the later of the two, and an hour ahead it lies in the calendar as well. -/
theorem exists_diff_lastEvening :
    ∃ interval notes, lastNight.diff lastEvening = .ok (interval, notes) := by
  have hconsistent : lastEvening.Consistent := ⟨(Reading.check_eq_ok_iff _).1 rfl, rfl, rfl⟩
  have hclock : lastEvening.HasClock := fun _ _ => by decide
  have hasked : ¬AskedOutside lastNight lastEvening := by
    rintro ⟨data, rule, one, two, exchanged, hzone, -⟩
    contradiction
  refine (exists_diff_iff consistent_lastNight hconsistent hasClock_lastNight hclock hasked).1.2 ?_
  rintro ⟨-, one, two, exchanged, horder, houtside⟩
  have hforward : lastNight.inOrder lastEvening = (lastNight, lastEvening, false) := rfl
  cases hforward.symm.trans horder
  exact houtside (by decide)

/-- An hour before the end of the calendar, on a clock three hours behind. -/
def lastNightBehind : Instant where
  reading := ⟨9999, 12, 31, 23, 0, 0, 0⟩
  epoch := 253402308000
  kept := -10800
  isDaylight := false
  zone := .fixed ⟨-10800, by decide⟩

/-- An hour ahead the new year has come by then, and the calendar has ended. -/
theorem not_exists_diff_lastNightBehind :
    lastNight.Consistent ∧ lastNightBehind.Consistent ∧ lastNight.HasClock ∧
      lastNightBehind.HasClock ∧ lastNight.diff lastNightBehind = .error .date := by
  have hconsistent : lastNightBehind.Consistent := ⟨(Reading.check_eq_ok_iff _).1 rfl, rfl, rfl⟩
  have hclock : lastNightBehind.HasClock := by
    intro data hzone
    contradiction
  exact ⟨consistent_lastNight, hconsistent, hasClock_lastNight, hclock, rfl⟩

end Instant

end CivilTime
