import CivilTime.Proofs.RuleOffsets

/-!
# Local times that a rule shows

An exact time shows a local time.  Asked about that local time, a rule should
name the offset again; it should not call the local time skipped.

* `LocalTime.Shows` says this of an answer.
* `YearPlan.shows_iff` is the exact condition within one year of a rule, and
  `YearPlan.Skips` are the local times over which the clock jumps there.
* `ZoneRule.localTimeAt_shows_iff` is the condition for every rule that can be
  read.  The offset is looked up in the year of the standard time and the local
  time in its own year, so the two must agree.  Under a regular rule they do;
  `not_shows_allYear` is a rule under which they do not, since its daylight time
  ends and begins again at the turn of the year.
-/

namespace CivilTime

/-- The answer names the offset. -/
def LocalTime.Shows (offset : Int) : LocalTime → Prop
  | once shown => shown = offset
  | skipped _ _ => False
  | repeated first second => first = offset ∨ second = offset

namespace LocalTime

variable {offset o p : Int}

@[simp] theorem shows_once : (once o).Shows offset ↔ o = offset :=
  Iff.rfl

@[simp] theorem not_shows_skipped : ¬(skipped o p).Shows offset :=
  not_false

@[simp] theorem shows_repeated : (repeated o p).Shows offset ↔ o = offset ∨ p = offset :=
  Iff.rfl

end LocalTime

/-! ## One year -/

namespace YearPlan

variable {p : YearPlan} {x offset : Int}

/-- The clock jumps over the local time where it goes forward at a switch. -/
def Skips (p : YearPlan) (time : Int) : Prop :=
  p.first ≤ time ∧ time < p.first + (p.inner - p.outer) ∨
    p.second ≤ time ∧ time < p.second + (p.outer - p.inner)

theorem offsetAt_eq_iff :
    p.offsetAt x = offset ↔
      offset = p.inner ∧ p.first - p.outer ≤ x ∧ x < p.second - p.inner ∨
        offset = p.outer ∧ ¬(p.first - p.outer ≤ x ∧ x < p.second - p.inner) := by
  unfold offsetAt
  split <;> omega

/-- A year names the offset of an exact time again exactly if it gives that offset itself
and does not jump over the local time. -/
theorem shows_iff (h : p.first ≤ p.second) :
    (p.localTimeAt (x + offset)).Shows offset ↔
      p.offsetAt x = offset ∧ ¬p.Skips (x + offset) := by
  rw [offsetAt_eq_iff]
  unfold localTimeAt Daylight.localTimeBetween Skips
  dsimp only
  -- The local time is in one of five intervals, whichever way the clock goes.
  split
  · split
    · simp only [LocalTime.shows_once]
      omega
    split
    · simp only [LocalTime.not_shows_skipped, false_iff]
      omega
    split
    · simp only [LocalTime.shows_once]
      omega
    split
    · simp only [LocalTime.shows_repeated]
      omega
    · simp only [LocalTime.shows_once]
      omega
  · split
    · simp only [LocalTime.shows_once]
      omega
    split
    · simp only [LocalTime.shows_repeated]
      omega
    split
    · simp only [LocalTime.shows_once]
      omega
    split
    · simp only [LocalTime.not_shows_skipped, false_iff]
      omega
    · simp only [LocalTime.shows_once]
      omega

end YearPlan

/-! ## A rule -/

namespace Daylight

variable {d : Daylight} {standard year x : Int}

theorem planIn_first_le (d : Daylight) (standard year : Int) :
    (d.planIn standard year).first ≤ (d.planIn standard year).second := by
  by_cases hlt : (d.localBounds year).1 < (d.localBounds year).2
  · rw [planIn_of_lt hlt]
    exact Int.le_of_lt hlt
  · rw [planIn_of_not_lt hlt]
    exact Int.not_lt.1 hlt

/-- Where the switches are further apart than the clock changes, no exact time shows a
local time that is jumped over. -/
theorem Apart.not_skips (h : d.Apart standard year) (x : Int) :
    ¬(d.planIn standard year).Skips (x + (d.planIn standard year).offsetAt x) := by
  rw [Apart, exactBounds_eq] at h
  unfold YearPlan.Skips YearPlan.offsetAt
  dsimp only at h
  by_cases hlt : (d.localBounds year).1 < (d.localBounds year).2
  · rw [planIn_of_lt hlt]
    dsimp only
    split <;> omega
  · rw [planIn_of_not_lt hlt]
    dsimp only
    split <;> omega

theorem Apart.shows_iff (h : d.Apart standard year) {offset : Int} :
    ((d.planIn standard year).localTimeAt (x + offset)).Shows offset ↔
      (d.periodIn standard year x).offset = offset := by
  rw [YearPlan.shows_iff (d.planIn_first_le standard year), h.periodIn_offset,
    and_iff_left_iff_imp]
  rintro rfl
  exact h.not_skips x

end Daylight

namespace ZoneRule

variable {r : ZoneRule} {text : String} {x year : Int}

/-- For every rule that can be read, the answer about the local time that an exact time
shows names the offset again exactly if the year of the local time gives that offset itself
and does not jump over the local time.  If the switches of that year are further apart than
the clock changes, only the offset counts, and it is right if the year of the standard time
is the same.  Under a regular rule the answer always names the offset. -/
theorem localTimeAt_shows_iff (hparse : parse text = .ok r) (hyear : yearAt x = .ok year)
    (hfirst : 2 ≤ year) (hlast : year ≤ 9998) :
    ∃ period localTime, r.periodAt x = .ok period ∧
      r.localTimeAt (x + period.offset) = .ok localTime ∧
      (r.daylight = none → localTime = .once period.offset) ∧
      ∀ d localYear, r.daylight = some d → yearAt (x + period.offset) = .ok localYear →
        (localTime.Shows period.offset ↔
          (d.planIn r.standard localYear).offsetAt x = period.offset ∧
            ¬(d.planIn r.standard localYear).Skips (x + period.offset)) ∧
        (d.Apart r.standard localYear →
          (localTime.Shows period.offset ↔
            (d.periodIn r.standard localYear x).offset = period.offset)) ∧
        (d.Apart r.standard localYear → yearAt (x + r.standard) = .ok localYear →
          localTime.Shows period.offset) ∧
        (d.Regular r.standard → localTime.Shows period.offset) := by
  have hwithin := withinDay_of_read (mapError_eq_ok.1 hparse)
  obtain ⟨-, hbegin, hend⟩ := (yearAt_eq_ok_iff _ _).1 hyear
  have hcalendar := yearStart_bounds hfirst hlast
  obtain ⟨period, hperiod⟩ := @exists_periodAt r x hwithin (by omega) (by omega)
  have hoffset := hwithin.offset hperiod
  cases hd : r.daylight with
  | none =>
    have hsteady : period = ⟨r.standard, none, false⟩ := by
      rw [periodAt, hd] at hperiod
      exact (Except.ok.inj hperiod).symm
    refine ⟨period, .once r.standard, hperiod, by rw [localTimeAt, hd], fun _ => ?_, ?_⟩
    · rw [hsteady]
    · intro d localYear hsome
      contradiction
  | some d =>
    obtain ⟨localYear, hlocal⟩ := @exists_yearAt (x + period.offset) (by omega) (by omega)
    obtain ⟨hlocalRange, hlocalBegin, hlocalEnd⟩ := (yearAt_eq_ok_iff _ _).1 hlocal
    obtain ⟨standardYear, hstandard, hperiodIn⟩ := (periodAt_eq_ok_iff hd x period).1 hperiod
    have hstandardRange := ((yearAt_eq_ok_iff _ _).1 hstandard).1
    refine ⟨period, _, hperiod, localTimeAt_eq hd hlocal, fun hnone => ?_,
      fun found other hfound hother => ?_⟩
    · contradiction
    obtain rfl := Option.some.inj hfound
    obtain rfl := Except.ok.inj (hlocal.symm.trans hother)
    refine ⟨YearPlan.shows_iff (d.planIn_first_le _ _), fun hapart => hapart.shows_iff,
      fun hapart hsame => ?_, fun hregular => ?_⟩
    · obtain rfl := Except.ok.inj (hstandard.symm.trans hsame)
      rw [hapart.shows_iff, hperiodIn]
    · -- The plans of the two years agree at the exact time, which is near both of them.
      rw [(hregular.isApart hlocalRange.1 hlocalRange.2).shows_iff, ← hperiodIn,
        hregular.periodIn_offset hlocalRange.1 hlocalRange.2,
        hregular.periodIn_offset hstandardRange.1 hstandardRange.2]
      exact (hregular.planIn_offsetAt hlocalRange.1 hlocalRange.2 (by omega) (by omega)
        hstandard).symm

/-- In the hour that central Europe goes through twice, the earlier time is named. -/
theorem localTimeAt_shows_octoberHalfPastTwo :
    ∃ localTime, centralEurope.localTimeAt 1698546600 = .ok localTime ∧ localTime.Shows 7200 := by
  have hparse : parse "CET-1CEST,M3.5.0,M10.5.0/3" = .ok centralEurope := by decide +kernel
  have hyear : yearAt 1698539400 = .ok 2023 := rfl
  have hlocal : yearAt 1698546600 = .ok 2023 := rfl
  obtain ⟨period, localTime, hperiod, hlocalTime, -, hshows⟩ :=
    localTimeAt_shows_iff hparse hyear (by decide) (by decide)
  obtain rfl : period = ⟨7200, some 1679792400, true⟩ := (Except.ok.inj hperiod).symm
  obtain ⟨-, -, -, hregular⟩ := hshows centralEuropeDaylight 2023 rfl hlocal
  exact ⟨localTime, hlocalTime, hregular centralEurope_regular⟩

/-- Daylight time all year: it ends at the moment at which it begins again, one o'clock on
New Year's Day in daylight time.  The half hour before one o'clock belongs to the year before
by standard time, and to the gap of the new year by its own clock. -/
theorem not_shows_allYear :
    ¬∀ (text : String) (r : ZoneRule) (x year : Int) (period : OffsetPeriod)
      (localTime : LocalTime), parse text = .ok r → yearAt x = .ok year → 2 ≤ year → year ≤ 9998 →
        r.periodAt x = .ok period → r.localTimeAt (x + period.offset) = .ok localTime →
          localTime.Shows period.offset := by
  intro h
  have hparse : parse "EST5EDT,0/0,J365/25" =
      .ok ⟨-18000, some ⟨-14400, ⟨.yearDay 1, 0⟩, ⟨.julianDay 365, 90000⟩⟩⟩ := by decide +kernel
  exact h _ _ 1672547400 2023 ⟨-14400, some 1641013200, true⟩ (.skipped (-14400) (-18000)) hparse
    rfl (by decide) (by decide) rfl rfl

end ZoneRule

end CivilTime
