import CivilTime.Calendar.Bijection
import CivilTime.Proofs.LocalTimeExact
import CivilTime.Proofs.Success
import CivilTime.ZoneRule.Basic

/-!
# Local times under a yearly rule

A rule answers for local times by the year of the local time, and for exact
times by the year of the standard time.  This module shows that the two
agree, for rules whose switches keep away from the turn of the year and from
each other (`Daylight.Regular`).

* `yearAt_eq_ok_iff` says which seconds lie in a year.
* `YearPlan` is a year of the rule: two switches, and the offsets inside and
  outside of them.  It covers daylight time on either side of the turn of the
  year, and daylight offsets above and below the standard one.
* `YearPlan.describes` is the agreement within one plan.
* `Daylight.Apart` is enough for the order of the switches: exact times and local
  times agree on it.
* `planIn_offsetAt` shows that a day beyond either end of a year, the plan of
  that year still holds.
-/

namespace CivilTime

/-! ## The seconds of a year -/

/-- The second at which a year begins. -/
def yearStart (year : Int) : Int :=
  (Date.mk year 1 1).dayNumber * 86400

theorem yearStart_eq (year : Int) :
    yearStart year = (daysBeforeYear year + 1 - epochOrdinal) * 86400 := by
  simp only [yearStart, Date.dayNumber, Date.ordinal, daysBeforeMonth]
  omega

theorem yearStart_mono {year later : Int} (h : year ≤ later) :
    yearStart year ≤ yearStart later := by
  rcases Int.lt_or_eq_of_le h with hlt | rfl
  · have hdays := daysBeforeYear_mono hlt
    rw [yearStart_eq, yearStart_eq]
    omega
  · exact Int.le_refl _

/-- The years from 2 to 9998 keep away from the ends of the calendar. -/
theorem yearStart_bounds {year : Int} (hfirst : 2 ≤ year) (hlast : year ≤ 9998) :
    yearStart 1 + 172800 ≤ yearStart year ∧ yearStart (year + 1) + 172800 ≤ yearStart 10000 := by
  have hbegin := yearStart_mono hfirst
  have hend := yearStart_mono (show year + 1 ≤ 9999 by omega)
  have hcalendar : yearStart 1 + 172800 ≤ yearStart 2 ∧
      yearStart 9999 + 172800 ≤ yearStart 10000 := by decide
  omega

theorem yearAt_eq_ok_iff (second year : Int) :
    yearAt second = .ok year ↔
      (1 ≤ year ∧ year ≤ 9999) ∧ yearStart year ≤ second ∧ second < yearStart (year + 1) := by
  rw [yearStart_eq, yearStart_eq, yearAt, checkedYearOfOrdinal]
  generalize hordinal : second / 86400 + epochOrdinal = ordinal
  have hrange := Date.year_ofOrdinal_iff ordinal
  have hbounds := yearOfOrdinal_bounds ordinal
  simp only [Date.ofOrdinal, lastOrdinal] at hrange
  constructor
  · intro h
    split at h
    · contradiction
    split at h
    · contradiction
    split at h
    · contradiction
    next hword hlow hhigh =>
      obtain rfl := Except.ok.inj h
      simp only [lastOrdinal] at hhigh
      refine ⟨hrange.2 ⟨by omega, by omega⟩, by omega, by omega⟩
  · rintro ⟨hyear, hfrom, hto⟩
    have hfound : yearOfOrdinal ordinal = year := yearOfOrdinal_eq (by omega) (by omega)
    rw [hfound] at hrange
    have hordinals := hrange.1 hyear
    have hword : (!fitsWord ordinal) = false := by
      simp only [fitsWord, Bool.not_eq_false', Bool.and_eq_true, decide_eq_true_eq]
      omega
    rw [if_neg (by simp [hword]), if_neg (by omega), if_neg (by simp only [lastOrdinal]; omega),
      hfound]

theorem exists_yearAt {second : Int} (hfrom : yearStart 1 ≤ second)
    (hto : second < yearStart 10000) : ∃ year, yearAt second = .ok year := by
  have hcalendar : yearStart 1 = -62135596800 ∧ yearStart 10000 = 253402300800 := by decide
  refine ⟨_, (yearAt_eq_ok_iff second (yearOfOrdinal (second / 86400 + epochOrdinal))).2 ?_⟩
  have hrange := Date.year_ofOrdinal_iff (second / 86400 + epochOrdinal)
  have hbounds := yearOfOrdinal_bounds (second / 86400 + epochOrdinal)
  simp only [Date.ofOrdinal, lastOrdinal] at hrange
  rw [yearStart_eq, yearStart_eq, hrange]
  unfold epochOrdinal at *
  omega

/-! ## A year with two switches -/

/-- A year of a rule.  The offset `outer` holds up to the first switch and
from the second one on, and `inner` between them.  Each switch is given on the
clock that is in use just before it. -/
structure YearPlan where
  first : Int
  second : Int
  outer : Int
  inner : Int

namespace YearPlan

/-- The offset at an exact time. -/
def offsetAt (p : YearPlan) (x : Int) : Int :=
  if p.first - p.outer ≤ x ∧ x < p.second - p.inner then p.inner else p.outer

/-- How often a local time occurs. -/
def localTimeAt (p : YearPlan) (time : Int) : LocalTime :=
  Daylight.localTimeBetween p.first p.second p.outer p.inner time

/-- The offsets are less than a day, and the switches four days apart. -/
structure Spaced (p : YearPlan) : Prop where
  outer : p.outer.natAbs < 86400
  inner : p.inner.natAbs < 86400
  apart : p.first + 345600 ≤ p.second

variable {p : YearPlan}

/-- The exact times at which a local time is shown, by the offset that holds
there. -/
theorem mem_shown_iff (h : p.Spaced) (time x : Int) :
    x + p.offsetAt x = time ↔
      x = time - p.outer ∧ (time < p.first ∨ p.second - p.inner + p.outer ≤ time) ∨
      x = time - p.inner ∧ (p.first - p.outer + p.inner ≤ time ∧ time < p.second) := by
  obtain ⟨houter, hinner, hapart⟩ := h
  unfold offsetAt
  split <;> omega

/-- Within a year, the answer to a local time agrees with the offsets at the
exact times. -/
theorem describes (h : p.Spaced) (time : Int) :
    (p.localTimeAt time).Describes {x | x + p.offsetAt x = time} time := by
  have hmem := mem_shown_iff h time
  obtain ⟨houter, hinner, hapart⟩ := h
  have honce {o : Int} (hshown : ∀ x, x + p.offsetAt x = time ↔ x = time - o) :
      (LocalTime.once o).Describes {x | x + p.offsetAt x = time} time := Set.ext hshown
  have hskipped {b a : Int} (hshown : ∀ x, ¬x + p.offsetAt x = time) :
      (LocalTime.skipped b a).Describes {x | x + p.offsetAt x = time} time :=
    Set.eq_empty_iff_forall_notMem.2 hshown
  have hrepeated {b a : Int} (hshown : ∀ x, x + p.offsetAt x = time ↔ x = time - b ∨ x = time - a)
      (hlt : time - b < time - a) :
      (LocalTime.repeated b a).Describes {x | x + p.offsetAt x = time} time :=
    ⟨Set.ext hshown, hlt⟩
  unfold localTimeAt Daylight.localTimeBetween
  dsimp only
  split
  · split
    · exact honce fun x => by rw [hmem]; omega
    split
    · exact hskipped fun x => by rw [hmem]; omega
    split
    · exact honce fun x => by rw [hmem]; omega
    split
    · exact hrepeated (fun x => by rw [hmem]; omega) (by omega)
    · exact honce fun x => by rw [hmem]; omega
  · split
    · exact honce fun x => by rw [hmem]; omega
    split
    · exact hrepeated (fun x => by rw [hmem]; omega) (by omega)
    split
    · exact honce fun x => by rw [hmem]; omega
    split
    · exact hskipped fun x => by rw [hmem]; omega
    · exact honce fun x => by rw [hmem]; omega

/-- The two exact times at which the offset changes. -/
def IsSwitch (p : YearPlan) (x : Int) : Prop :=
  x = p.first - p.outer ∨ x = p.second - p.inner

/-- A local time that is said to be skipped lies in the gap of a switch. -/
theorem isSwitch_of_skipped (h : p.Spaced) {time before after : Int}
    (hskipped : p.localTimeAt time = .skipped before after) :
    ∃ x, p.IsSwitch x ∧ p.offsetAt (x - 1) = after ∧ p.offsetAt x = before ∧
      time - before < x ∧ x ≤ time - after := by
  obtain ⟨houter, hinner, hapart⟩ := h
  unfold localTimeAt Daylight.localTimeBetween at hskipped
  dsimp only at hskipped
  by_cases hshift : 0 ≤ p.inner - p.outer
  · -- The clock goes forward at the first switch.
    rw [if_pos hshift] at hskipped
    split at hskipped
    · contradiction
    split at hskipped
    · next hfrom hto =>
      cases hskipped
      refine ⟨p.first - p.outer, Or.inl rfl, if_neg ?_, if_pos ?_, ?_, ?_⟩ <;> omega
    · split at hskipped
      · contradiction
      · split at hskipped <;> contradiction
  · -- It goes forward at the second one.
    rw [if_neg hshift] at hskipped
    split at hskipped
    · contradiction
    split at hskipped
    · contradiction
    split at hskipped
    · contradiction
    split at hskipped
    · next hfrom hto =>
      cases hskipped
      refine ⟨p.second - p.inner, Or.inr rfl, if_pos ?_, if_neg ?_, ?_, ?_⟩ <;> omega
    · contradiction

/-- Both switches keep two days away from either end of the year. -/
structure Inside (p : YearPlan) (year : Int) : Prop extends p.Spaced where
  first : yearStart year + 172800 ≤ p.first
  second : p.second + 172800 ≤ yearStart (year + 1)

theorem offsetAt_natAbs (h : p.Spaced) (x : Int) : (p.offsetAt x).natAbs < 86400 := by
  unfold offsetAt
  split
  · exact h.inner
  · exact h.outer

theorem offsetAt_of_early (h : p.Spaced) {x : Int} (hx : x + 86400 ≤ p.first) :
    p.offsetAt x = p.outer := by
  have houter := h.outer
  exact if_neg (by omega)

theorem offsetAt_of_late (h : p.Spaced) {x : Int} (hx : p.second + 86400 ≤ x) :
    p.offsetAt x = p.outer := by
  have hinner := h.inner
  exact if_neg (by omega)

end YearPlan

/-! ## The years of a rule -/

namespace Daylight

/-- The switches of a year in their order, and the offsets. -/
def planIn (d : Daylight) (standard year : Int) : YearPlan :=
  let (start, stop) := d.localBounds year
  if start < stop then ⟨start, stop, standard, d.offset⟩
  else ⟨stop, start, d.offset, standard⟩

variable {d : Daylight} {standard year : Int}

theorem planIn_of_lt (h : (d.localBounds year).1 < (d.localBounds year).2) :
    d.planIn standard year =
      ⟨(d.localBounds year).1, (d.localBounds year).2, standard, d.offset⟩ :=
  if_pos h

theorem planIn_of_not_lt (h : ¬(d.localBounds year).1 < (d.localBounds year).2) :
    d.planIn standard year =
      ⟨(d.localBounds year).2, (d.localBounds year).1, d.offset, standard⟩ :=
  if_neg h

theorem localTimeIn_eq (d : Daylight) (standard year time : Int) :
    d.localTimeIn standard year time = (d.planIn standard year).localTimeAt time := by
  unfold localTimeIn planIn
  dsimp only
  split <;> rfl

/-- Both offsets are less than a day.  In every year of the calendar, both
switches keep two days away from either end of the year and four days away
from each other, and they come in the same order every year. -/
structure Regular (d : Daylight) (standard : Int) : Prop where
  standard : standard.natAbs < 86400
  offset : d.offset.natAbs < 86400
  start : ∀ year, 1 ≤ year → year ≤ 9999 →
    yearStart year + 172800 ≤ (d.localBounds year).1 ∧
      (d.localBounds year).1 + 172800 ≤ yearStart (year + 1)
  stop : ∀ year, 1 ≤ year → year ≤ 9999 →
    yearStart year + 172800 ≤ (d.localBounds year).2 ∧
      (d.localBounds year).2 + 172800 ≤ yearStart (year + 1)
  apart : ∀ year, 1 ≤ year → year ≤ 9999 →
    345600 ≤ ((d.localBounds year).1 - (d.localBounds year).2).natAbs
  order : ∀ year other, 1 ≤ year → year ≤ 9999 → 1 ≤ other → other ≤ 9999 →
    ((d.localBounds year).1 < (d.localBounds year).2 ↔
      (d.localBounds other).1 < (d.localBounds other).2)

theorem Regular.inside (h : d.Regular standard) (hfirst : 1 ≤ year) (hlast : year ≤ 9999) :
    (d.planIn standard year).Inside year := by
  have hstandard := h.standard
  have hoffset := h.offset
  have hstart := h.start year hfirst hlast
  have hstop := h.stop year hfirst hlast
  have hapart := h.apart year hfirst hlast
  by_cases hlt : (d.localBounds year).1 < (d.localBounds year).2
  · rw [planIn_of_lt hlt]
    exact ⟨⟨hstandard, hoffset, by dsimp only; omega⟩, hstart.1, hstop.2⟩
  · rw [planIn_of_not_lt hlt]
    exact ⟨⟨hoffset, hstandard, by dsimp only; omega⟩, hstop.1, hstart.2⟩

/-- The same offset holds at the turn of every year. -/
theorem Regular.outer_eq (h : d.Regular standard) {other : Int} (hfirst : 1 ≤ year)
    (hlast : year ≤ 9999) (hfirst' : 1 ≤ other) (hlast' : other ≤ 9999) :
    (d.planIn standard year).outer = (d.planIn standard other).outer := by
  have horder := h.order year other hfirst hlast hfirst' hlast'
  by_cases hlt : (d.localBounds year).1 < (d.localBounds year).2
  · rw [planIn_of_lt hlt, planIn_of_lt (horder.1 hlt)]
  · rw [planIn_of_not_lt hlt, planIn_of_not_lt (fun hlt' => hlt (horder.2 hlt'))]

theorem exactBounds_eq (d : Daylight) (standard year : Int) :
    d.exactBounds standard year =
      ((d.localBounds year).1 - standard, (d.localBounds year).2 - d.offset) :=
  rfl

/-- The switches of a year are further apart than the clock changes at them. -/
def Apart (d : Daylight) (standard year : Int) : Prop :=
  (d.offset - standard).natAbs <
    ((d.exactBounds standard year).1 - (d.exactBounds standard year).2).natAbs

/-- Then exact times order the switches as local times do, and the offset of the period
at an exact time is that of the plan. -/
theorem Apart.periodIn_offset (h : d.Apart standard year) (x : Int) :
    (d.periodIn standard year x).offset = (d.planIn standard year).offsetAt x := by
  rw [Apart, exactBounds_eq] at h
  rw [periodIn, exactBounds_eq, YearPlan.offsetAt]
  dsimp only at h ⊢
  by_cases hlt : (d.localBounds year).1 < (d.localBounds year).2
  · rw [planIn_of_lt hlt, if_pos (by omega)]
    dsimp only
    split
    · rfl
    · split <;> rfl
  · rw [planIn_of_not_lt hlt, if_neg (by omega)]
    dsimp only
    split
    · rfl
    · split <;> rfl

theorem Regular.isApart (h : d.Regular standard) (hfirst : 1 ≤ year) (hlast : year ≤ 9999) :
    d.Apart standard year := by
  have hstandard := h.standard
  have hoffset := h.offset
  have hapart := h.apart year hfirst hlast
  rw [Apart, exactBounds_eq]
  dsimp only
  omega

/-- The offset of the period at an exact time is that of the plan. -/
theorem Regular.periodIn_offset (h : d.Regular standard) (hfirst : 1 ≤ year)
    (hlast : year ≤ 9999) (x : Int) :
    (d.periodIn standard year x).offset = (d.planIn standard year).offsetAt x :=
  (h.isApart hfirst hlast).periodIn_offset x

/-- A day beyond either end of a year, the plan of that year still holds. -/
theorem Regular.planIn_offsetAt (h : d.Regular standard) {other x : Int} (hfirst : 1 ≤ year)
    (hlast : year ≤ 9999) (hfrom : yearStart year - 86400 < x)
    (hto : x < yearStart (year + 1) + 86400) (hother : yearAt (x + standard) = .ok other) :
    (d.planIn standard other).offsetAt x = (d.planIn standard year).offsetAt x := by
  have hstandard := h.standard
  obtain ⟨⟨hfirst', hlast'⟩, hstart, hstop⟩ := (yearAt_eq_ok_iff _ _).1 hother
  have hinside := h.inside hfirst hlast
  have hinside' := h.inside hfirst' hlast'
  have houter : (d.planIn standard other).outer = (d.planIn standard year).outer :=
    h.outer_eq hfirst' hlast' hfirst hlast
  have hbegin := hinside.first
  have hend := hinside.second
  have hbegin' := hinside'.first
  have hend' := hinside'.second
  rcases Int.lt_trichotomy other year with hlt | rfl | hlt
  · -- The year before is over, and the first switch is still to come.
    have hyears := yearStart_mono (show other + 1 ≤ year by omega)
    rw [YearPlan.offsetAt_of_late hinside'.toSpaced (by omega),
      YearPlan.offsetAt_of_early hinside.toSpaced (by omega), houter]
  · rfl
  · -- The second switch is over, and the year after has just begun.
    have hyears := yearStart_mono (show year + 1 ≤ other by omega)
    rw [YearPlan.offsetAt_of_early hinside'.toSpaced (by omega),
      YearPlan.offsetAt_of_late hinside.toSpaced (by omega), houter]

/-- The switches of the plan are the two bounds as exact times. -/
theorem exactBounds_of_isSwitch {x : Int} (h : (d.planIn standard year).IsSwitch x) :
    x = (d.exactBounds standard year).1 ∨ x = (d.exactBounds standard year).2 := by
  by_cases hlt : (d.localBounds year).1 < (d.localBounds year).2
  · rw [planIn_of_lt hlt] at h
    exact h
  · rw [planIn_of_not_lt hlt] at h
    exact h.symm

end Daylight

/-! ## The rule -/

namespace ZoneRule

/-- The exact times at which the rule shows a local time. -/
def timesShowing (r : ZoneRule) (time : Int) : Set Int :=
  {x | ∃ period, r.periodAt x = .ok period ∧ x + period.offset = time}

variable {r : ZoneRule} {d : Daylight}

theorem periodAt_eq_ok_iff (hd : r.daylight = some d) (x : Int) (period : OffsetPeriod) :
    r.periodAt x = .ok period ↔
      ∃ year, yearAt (x + r.standard) = .ok year ∧ d.periodIn r.standard year x = period := by
  rw [periodAt, hd]
  exact bind_eq_ok.trans (exists_congr fun year => and_congr_right fun _ => pure_eq_ok)

/-- Within a day of a year, the rule gives the offset of the plan of that
year. -/
theorem periodAt_offset (hd : r.daylight = some d) (h : d.Regular r.standard) {year x : Int}
    (hfirst : 2 ≤ year) (hlast : year ≤ 9998) (hfrom : yearStart year - 86400 < x)
    (hto : x < yearStart (year + 1) + 86400) :
    ∃ period, r.periodAt x = .ok period ∧
      period.offset = (d.planIn r.standard year).offsetAt x := by
  have hstandard := h.standard
  have hcalendar := yearStart_bounds hfirst hlast
  obtain ⟨other, hother⟩ := @exists_yearAt (x + r.standard) (by omega) (by omega)
  refine ⟨_, (periodAt_eq_ok_iff hd _ _).2 ⟨other, hother, rfl⟩, ?_⟩
  have hrange := ((yearAt_eq_ok_iff _ _).1 hother).1
  rw [h.periodIn_offset hrange.1 hrange.2,
    h.planIn_offsetAt (by omega) (by omega) hfrom hto hother]

/-- A local time of a year is shown where the plan of that year shows it. -/
theorem timesShowing_eq (hd : r.daylight = some d) (h : d.Regular r.standard) {year time : Int}
    (hfirst : 2 ≤ year) (hlast : year ≤ 9998) (hyear : yearAt time = .ok year) :
    r.timesShowing time = {x | x + (d.planIn r.standard year).offsetAt x = time} := by
  obtain ⟨-, hstart, hstop⟩ := (yearAt_eq_ok_iff _ _).1 hyear
  have hinside : (d.planIn r.standard year).Inside year := h.inside (by omega) (by omega)
  have hplan := fun x => @periodAt_offset r d hd h year x hfirst hlast
  ext x
  constructor
  · rintro ⟨period, hperiod, hx⟩
    have hoffset : period.offset.natAbs < 86400 := by
      obtain ⟨other, hother, rfl⟩ := (periodAt_eq_ok_iff hd _ _).1 hperiod
      have hrange := ((yearAt_eq_ok_iff _ _).1 hother).1
      rw [h.periodIn_offset hrange.1 hrange.2]
      exact YearPlan.offsetAt_natAbs (h.inside hrange.1 hrange.2).toSpaced x
    obtain ⟨other, hother, hsame⟩ := hplan x (by omega) (by omega)
    obtain rfl := Except.ok.inj (hperiod.symm.trans hother)
    rwa [hsame] at hx
  · intro hx
    have hx : x + (d.planIn r.standard year).offsetAt x = time := hx
    have hoffset := YearPlan.offsetAt_natAbs hinside.toSpaced x
    obtain ⟨period, hperiod, hsame⟩ := hplan x (by omega) (by omega)
    exact ⟨period, hperiod, by rwa [hsame]⟩

theorem localTimeAt_eq (hd : r.daylight = some d) {year time : Int}
    (hyear : yearAt time = .ok year) :
    r.localTimeAt time = .ok ((d.planIn r.standard year).localTimeAt time) := by
  rw [localTimeAt, hd, ← d.localTimeIn_eq]
  exact bind_eq_ok.2 ⟨year, hyear, rfl⟩

/-- A regular rule classifies local times exactly. -/
theorem classifies_of_regular (hd : r.daylight = some d) (h : d.Regular r.standard)
    {year time : Int} (hfirst : 2 ≤ year) (hlast : year ≤ 9998) (hyear : yearAt time = .ok year) :
    Classifies (r.localTimeAt time) (r.timesShowing time) time := by
  rw [classifies_iff, timesShowing_eq hd h hfirst hlast hyear]
  have hinside : (d.planIn r.standard year).Inside year := h.inside (by omega) (by omega)
  exact ⟨_, localTimeAt_eq hd hyear, YearPlan.describes hinside.toSpaced time⟩

/-- A regular rule classifies local times exactly, and a local time that it
calls skipped lies in the gap of a switch of that year. -/
theorem localTimeAt_exact_of_regular (hd : r.daylight = some d) (h : d.Regular r.standard)
    {year time : Int} (hfirst : 2 ≤ year) (hlast : year ≤ 9998) (hyear : yearAt time = .ok year) :
    Classifies (r.localTimeAt time) (r.timesShowing time) time ∧
      ∀ before after, r.localTimeAt time = .ok (.skipped before after) →
        ∃ x, (x = (d.exactBounds r.standard year).1 ∨ x = (d.exactBounds r.standard year).2) ∧
          (∃ period, r.periodAt (x - 1) = .ok period ∧ period.offset = after) ∧
          (∃ period, r.periodAt x = .ok period ∧ period.offset = before) ∧
          time - before < x ∧ x ≤ time - after := by
  refine ⟨classifies_of_regular hd h hfirst hlast hyear, fun before after hskipped => ?_⟩
  have hinside : (d.planIn r.standard year).Inside year := h.inside (by omega) (by omega)
  obtain ⟨-, hstart, hstop⟩ := (yearAt_eq_ok_iff _ _).1 hyear
  rw [localTimeAt_eq hd hyear, Except.ok.injEq] at hskipped
  obtain ⟨x, hswitch, hbefore, hafter, hlow, hhigh⟩ :=
    YearPlan.isSwitch_of_skipped hinside.toSpaced hskipped
  have hoffset := YearPlan.offsetAt_natAbs hinside.toSpaced (x - 1)
  have hoffset' := YearPlan.offsetAt_natAbs hinside.toSpaced x
  obtain ⟨period, hperiod, hsame⟩ := @periodAt_offset r d hd h year (x - 1) hfirst hlast
    (by omega) (by omega)
  obtain ⟨period', hperiod', hsame'⟩ := @periodAt_offset r d hd h year x hfirst hlast
    (by omega) (by omega)
  exact ⟨x, Daylight.exactBounds_of_isSwitch hswitch, ⟨period, hperiod, hsame.trans hbefore⟩,
    ⟨period', hperiod', hsame'.trans hafter⟩, hlow, hhigh⟩

/-! ## An example -/

/-- The daylight time of central Europe, from the last Sunday of March to the
last Sunday of October. -/
def centralEuropeDaylight : Daylight where
  offset := 7200
  start := ⟨.lastWeekday 3 0, 7200⟩
  stop := ⟨.lastWeekday 10 0, 10800⟩

def centralEurope : ZoneRule where
  standard := 3600
  daylight := some centralEuropeDaylight

/-- The two switches lie in the last weeks of their months. -/
theorem centralEurope_bounds (year : Int) :
    (yearStart year + 7178400 ≤ (centralEuropeDaylight.localBounds year).1 ∧
      (centralEuropeDaylight.localBounds year).1 ≤ yearStart year + 7876800) ∧
    yearStart year + 25668000 ≤ (centralEuropeDaylight.localBounds year).2 ∧
      (centralEuropeDaylight.localBounds year).2 ≤ yearStart year + 26280000 := by
  simp only [centralEuropeDaylight, Daylight.localBounds, Switch.inYear, RuleDay.dayIn, yearStart,
    Date.dayNumber, Date.ordinal, daysBeforeMonth, monthLength]
  rcases leapDay_cases year with hleap | hleap
  · rw [hleap]
    omega
  · rw [hleap]
    omega

theorem centralEurope_regular : centralEuropeDaylight.Regular centralEurope.standard := by
  have hbounds := centralEurope_bounds
  have hlength : ∀ year, yearStart year + 31536000 ≤ yearStart (year + 1) := by
    intro year
    have hdays := @daysBeforeYear_mono year (year + 1) (by omega)
    rw [yearStart_eq, yearStart_eq]
    omega
  refine ⟨by decide, by decide, fun year _ _ => ?_, fun year _ _ => ?_, fun year _ _ => ?_,
    fun year other _ _ _ _ => ?_⟩
  · have hyear := hbounds year
    have hnext := hlength year
    omega
  · have hyear := hbounds year
    have hnext := hlength year
    omega
  · have hyear := hbounds year
    omega
  · have hyear := hbounds year
    have hother := hbounds other
    omega

/-- Half past two in the morning of 2023-03-26 is skipped in central
Europe. -/
theorem centralEurope_localTimeAt_exact :
    Classifies (centralEurope.localTimeAt 1679797800) (centralEurope.timesShowing 1679797800)
        1679797800 ∧
      centralEurope.localTimeAt 1679797800 = .ok (.skipped 7200 3600) ∧
        ∃ x, (x = 1679792400 ∨ x = 1698541200) ∧
          (∃ period, centralEurope.periodAt (x - 1) = .ok period ∧ period.offset = 3600) ∧
          (∃ period, centralEurope.periodAt x = .ok period ∧ period.offset = 7200) ∧
          1679797800 - 7200 < x ∧ x ≤ 1679797800 - 3600 := by
  have hyear : yearAt 1679797800 = .ok 2023 := rfl
  obtain ⟨hexact, hgap⟩ := localTimeAt_exact_of_regular rfl centralEurope_regular
    (by decide) (by decide) hyear
  exact ⟨hexact, rfl, hgap _ _ rfl⟩

end ZoneRule

end CivilTime
