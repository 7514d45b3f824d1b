import CivilTime.Proofs.RuleLocalTime
import CivilTime.Zone.Data

/-!
# The periods of a yearly rule

A lookup by exact time sees two years of a rule: the year of the standard time,
and the last switch of the year before.  For a regular rule this is enough to
find the latest of all transitions.

* `Daylight.changes` are the transitions of all years of the calendar, each with
  what begins there, and `IsLatest` is the last one at or before a second.
* `Daylight.firstChange` and `Daylight.secondChange` are those of a year in the
  order of the calendar, and `Regular.periodIn_eq` is the lookup in these terms.
* `Regular.mem_changes_cases` says where a transition can lie, seen from the year
  of a lookup.
* `ZoneRule.latest_cases` is what a lookup gives, and `ZoneRule.periodAt_latest`
  the same as seen from the transitions.
-/

namespace CivilTime

/-- The last entry at or before a second. -/
structure IsLatest (entries : Set ExactEntry) (second : Int) (entry : ExactEntry) : Prop where
  mem : entry ∈ entries
  le : entry.since ≤ second
  last : ∀ other ∈ entries, other.since ≤ second → other.since ≤ entry.since

/-- It stays the last one from its time on. -/
theorem IsLatest.of_between {entries : Set ExactEntry} {second x : Int} {entry : ExactEntry}
    (h : IsLatest entries second entry) (hfrom : entry.since ≤ x) (hto : x ≤ second) :
    IsLatest entries x entry :=
  ⟨h.mem, hfrom, fun other hother hle => h.last other hother (Int.le_trans hle hto)⟩

namespace Daylight

variable {d : Daylight} {standard year epoch : Int} {e : ExactEntry}

/-! ## Transitions and what begins there -/

/-- Daylight time begins. -/
def startChange (d : Daylight) (standard year : Int) : ExactEntry :=
  ⟨(d.localBounds year).1 - standard, d.offset, true⟩

/-- Daylight time ends. -/
def stopChange (d : Daylight) (standard year : Int) : ExactEntry :=
  ⟨(d.localBounds year).2 - d.offset, standard, false⟩

/-- The transitions of all years of the calendar. -/
def changes (d : Daylight) (standard : Int) : Set ExactEntry :=
  {e | ∃ year, 1 ≤ year ∧ year ≤ 9999 ∧
    (e = d.startChange standard year ∨ e = d.stopChange standard year)}

/-- What holds before all of them. -/
def beforeChanges (d : Daylight) (standard : Int) : OffsetPeriod :=
  if (d.startChange standard 1).since < (d.stopChange standard 1).since then
    ⟨standard, none, false⟩
  else ⟨d.offset, none, true⟩

/-! ## The two transitions of a year in order -/

/-- The first transition of a year. -/
def firstChange (d : Daylight) (standard year : Int) : ExactEntry :=
  if (d.localBounds year).1 < (d.localBounds year).2 then d.startChange standard year
  else d.stopChange standard year

/-- The second transition of a year. -/
def secondChange (d : Daylight) (standard year : Int) : ExactEntry :=
  if (d.localBounds year).1 < (d.localBounds year).2 then d.stopChange standard year
  else d.startChange standard year

theorem mem_changes_iff :
    e ∈ d.changes standard ↔ ∃ year, 1 ≤ year ∧ year ≤ 9999 ∧
      (e = d.firstChange standard year ∨ e = d.secondChange standard year) := by
  refine exists_congr fun year => and_congr_right fun _ => and_congr_right fun _ => ?_
  unfold firstChange secondChange
  split
  · exact Iff.rfl
  · exact Or.comm

/-- The transitions of a year are in order, a day away from its ends. -/
theorem Regular.changes_within (h : d.Regular standard) (hfirst : 1 ≤ year) (hlast : year ≤ 9999) :
    yearStart year + 86400 < (d.firstChange standard year).since ∧
      (d.firstChange standard year).since < (d.secondChange standard year).since ∧
      (d.secondChange standard year).since < yearStart (year + 1) - 86400 := by
  have hstandard := h.standard
  have hoffset := h.offset
  have hstart := h.start year hfirst hlast
  have hstop := h.stop year hfirst hlast
  have hapart := h.apart year hfirst hlast
  unfold firstChange secondChange startChange stopChange
  split <;> dsimp only <;> omega

theorem exactBounds_changes (d : Daylight) (standard year : Int) :
    d.exactBounds standard year =
      ((d.startChange standard year).since, (d.stopChange standard year).since) :=
  rfl

/-- The lookup where daylight time begins first. -/
theorem periodIn_of_lt
    (h : (d.startChange standard year).since < (d.stopChange standard year).since) (epoch : Int) :
    d.periodIn standard year epoch =
      if (d.stopChange standard year).since ≤ epoch then (d.stopChange standard year).period
      else if (d.startChange standard year).since ≤ epoch then
        (d.startChange standard year).period
      else ⟨standard, earlier year (d.stopChange standard (year - 1)).since, false⟩ := by
  rw [periodIn, exactBounds_changes, exactBounds_changes]
  dsimp only
  rw [if_pos h]
  by_cases hlate : (d.stopChange standard year).since ≤ epoch
  · rw [if_neg (by omega), if_pos hlate, if_pos hlate]
    rfl
  · by_cases hearly : (d.startChange standard year).since ≤ epoch
    · rw [if_pos ⟨hearly, by omega⟩, if_neg hlate, if_pos hearly]
      rfl
    · rw [if_neg (by omega), if_neg hlate, if_neg hlate, if_neg hearly]

/-- The lookup where it ends first. -/
theorem periodIn_of_gt
    (h : (d.stopChange standard year).since < (d.startChange standard year).since) (epoch : Int) :
    d.periodIn standard year epoch =
      if (d.startChange standard year).since ≤ epoch then (d.startChange standard year).period
      else if (d.stopChange standard year).since ≤ epoch then (d.stopChange standard year).period
      else ⟨d.offset, earlier year (d.startChange standard (year - 1)).since, true⟩ := by
  rw [periodIn, exactBounds_changes, exactBounds_changes]
  dsimp only
  rw [if_neg (by omega)]
  by_cases hlate : (d.startChange standard year).since ≤ epoch
  · rw [if_neg (by omega), if_pos hlate, if_pos hlate]
    rfl
  · by_cases hearly : (d.stopChange standard year).since ≤ epoch
    · rw [if_pos ⟨hearly, by omega⟩, if_neg hlate, if_pos hearly]
      rfl
    · rw [if_neg (by omega), if_neg hlate, if_neg hlate, if_neg hearly]

/-- The lookup with the transitions of the year in order. -/
theorem Regular.periodIn_eq (h : d.Regular standard) (hfirst : 1 ≤ year) (hlast : year ≤ 9999)
    (epoch : Int) :
    d.periodIn standard year epoch =
      if (d.secondChange standard year).since ≤ epoch then (d.secondChange standard year).period
      else if (d.firstChange standard year).since ≤ epoch then (d.firstChange standard year).period
      else if year ≤ 1 then d.beforeChanges standard
      else (d.secondChange standard (year - 1)).period := by
  have hwithin := h.changes_within hfirst hlast
  have horder : 1 < year → ((d.localBounds (year - 1)).1 < (d.localBounds (year - 1)).2 ↔
      (d.localBounds year).1 < (d.localBounds year).2) :=
    fun hlater => h.order _ _ (by omega) (by omega) hfirst hlast
  -- What holds at the beginning of the year does so since the year before.
  by_cases hlt : (d.localBounds year).1 < (d.localBounds year).2
  · have hstart : d.firstChange standard year = d.startChange standard year := if_pos hlt
    have hstop : d.secondChange standard year = d.stopChange standard year := if_pos hlt
    rw [hstart, hstop] at hwithin ⊢
    rw [periodIn_of_lt hwithin.2.1, earlier]
    by_cases hcalendar : year ≤ 1
    · obtain rfl : year = 1 := by omega
      have hbefore : d.beforeChanges standard = ⟨standard, none, false⟩ := if_pos hwithin.2.1
      rw [if_pos hcalendar, if_pos hcalendar, hbefore]
    · have hbefore : d.secondChange standard (year - 1) = d.stopChange standard (year - 1) :=
        if_pos ((horder (by omega)).2 hlt)
      rw [if_neg hcalendar, if_neg hcalendar, hbefore]
      rfl
  · have hstop : d.firstChange standard year = d.stopChange standard year := if_neg hlt
    have hstart : d.secondChange standard year = d.startChange standard year := if_neg hlt
    rw [hstart, hstop] at hwithin ⊢
    rw [periodIn_of_gt hwithin.2.1, earlier]
    by_cases hcalendar : year ≤ 1
    · obtain rfl : year = 1 := by omega
      have hbefore : d.beforeChanges standard = ⟨d.offset, none, true⟩ := if_neg (by omega)
      rw [if_pos hcalendar, if_pos hcalendar, hbefore]
    · have hbefore : d.secondChange standard (year - 1) = d.startChange standard (year - 1) :=
        if_neg fun hlt' => hlt ((horder (by omega)).1 hlt')
      rw [if_neg hcalendar, if_neg hcalendar, hbefore]
      rfl

/-! ## The latest transition -/

/-- Seen from the year of a lookup, a transition is still to come, or it is one of
this year, or the last one of the year before is not earlier. -/
theorem Regular.mem_changes_cases (h : d.Regular standard)
    (hyear : yearAt (epoch + standard) = .ok year) (he : e ∈ d.changes standard) :
    epoch < e.since ∨ e = d.firstChange standard year ∨ e = d.secondChange standard year ∨
      2 ≤ year ∧ e.since ≤ (d.secondChange standard (year - 1)).since := by
  obtain ⟨other, hfirst, hlast, he⟩ := mem_changes_iff.1 he
  obtain ⟨hrange, hbegin, hend⟩ := (yearAt_eq_ok_iff _ _).1 hyear
  have hstandard := h.standard
  have hwithin := h.changes_within hfirst hlast
  have hsince : (d.firstChange standard other).since ≤ e.since ∧
      e.since ≤ (d.secondChange standard other).since := by
    rcases he with rfl | rfl <;> omega
  rcases Int.lt_trichotomy year other with hlt | rfl | hgt
  · have hyears := yearStart_mono (show year + 1 ≤ other by omega)
    exact Or.inl (by omega)
  · rcases he with rfl | rfl
    · exact Or.inr (Or.inl rfl)
    · exact Or.inr (Or.inr (Or.inl rfl))
  · have hbefore : (d.secondChange standard other).since ≤
        (d.secondChange standard (year - 1)).since := by
      rcases Int.lt_or_eq_of_le (show other ≤ year - 1 by omega) with hlt | rfl
      · have hyears := yearStart_mono (show other + 1 ≤ year - 1 by omega)
        have hwithin' := @Regular.changes_within d standard (year - 1) h (by omega) (by omega)
        omega
      · exact Int.le_refl _
    exact Or.inr (Or.inr (Or.inr ⟨by omega, by omega⟩))

/-- A lookup gives the latest transition, or what holds before all of them. -/
theorem Regular.latest_cases (h : d.Regular standard)
    (hyear : yearAt (epoch + standard) = .ok year) :
    (∃ e, IsLatest (d.changes standard) epoch e ∧ d.periodIn standard year epoch = e.period) ∨
      (∀ e ∈ d.changes standard, epoch < e.since) ∧
        d.periodIn standard year epoch = d.beforeChanges standard := by
  obtain ⟨hrange, hbegin, hend⟩ := (yearAt_eq_ok_iff _ _).1 hyear
  have hstandard := h.standard
  have hwithin := h.changes_within hrange.1 hrange.2
  have hbefore (hlater : 2 ≤ year) :
      (d.secondChange standard (year - 1)).since < yearStart year - 86400 := by
    have hwithin' := @Regular.changes_within d standard (year - 1) h (by omega) (by omega)
    rw [Int.sub_add_cancel] at hwithin'
    exact hwithin'.2.2
  have hcases := fun e => @Regular.mem_changes_cases d standard year epoch e h hyear
  rw [h.periodIn_eq hrange.1 hrange.2]
  by_cases hlate : (d.secondChange standard year).since ≤ epoch
  · refine Or.inl ⟨_, ⟨mem_changes_iff.2 ⟨year, hrange.1, hrange.2, Or.inr rfl⟩, hlate, ?_⟩,
      if_pos hlate⟩
    intro e he hle
    rcases hcases e he with hlt | rfl | rfl | hold <;> omega
  by_cases hearly : (d.firstChange standard year).since ≤ epoch
  · refine Or.inl ⟨_, ⟨mem_changes_iff.2 ⟨year, hrange.1, hrange.2, Or.inl rfl⟩, hearly, ?_⟩, ?_⟩
    · intro e he hle
      rcases hcases e he with hlt | rfl | rfl | hold <;> omega
    · rw [if_neg hlate, if_pos hearly]
  rw [if_neg hlate, if_neg hearly]
  by_cases hfirst : year ≤ 1
  · refine Or.inr ⟨fun e he => ?_, if_pos hfirst⟩
    rcases hcases e he with hlt | rfl | rfl | hold <;> omega
  · refine Or.inl ⟨_, ⟨mem_changes_iff.2 ⟨year - 1, by omega, by omega, Or.inr rfl⟩, ?_, ?_⟩,
      if_neg hfirst⟩
    · omega
    · intro e he hle
      rcases hcases e he with hlt | rfl | rfl | hold <;> omega

/-- The calendar begins before all of them. -/
theorem Regular.calendar_lt_since (h : d.Regular standard) (he : e ∈ d.changes standard) :
    yearStart 1 + 86400 < e.since := by
  obtain ⟨year, hfirst, hlast, he⟩ := mem_changes_iff.1 he
  have hwithin := h.changes_within hfirst hlast
  have hyears := yearStart_mono hfirst
  rcases he with rfl | rfl <;> omega

/-- No two transitions happen at the same time. -/
theorem Regular.eq_of_since {other : ExactEntry} (h : d.Regular standard)
    (he : e ∈ d.changes standard) (hother : other ∈ d.changes standard)
    (hsince : e.since = other.since) : e = other := by
  obtain ⟨year, hfirst, hlast, he⟩ := mem_changes_iff.1 he
  obtain ⟨year', hfirst', hlast', hother⟩ := mem_changes_iff.1 hother
  have hwithin := h.changes_within hfirst hlast
  have hwithin' := h.changes_within hfirst' hlast'
  rcases Int.lt_trichotomy year year' with hlt | rfl | hgt
  · have hyears := yearStart_mono (show year + 1 ≤ year' by omega)
    rcases he with rfl | rfl <;> rcases hother with rfl | rfl <;> omega
  · rcases he with rfl | rfl <;> rcases hother with rfl | rfl <;> first | rfl | omega
  · have hyears := yearStart_mono (show year' + 1 ≤ year by omega)
    rcases he with rfl | rfl <;> rcases hother with rfl | rfl <;> omega

theorem Regular.eq_of_isLatest {other : ExactEntry} (h : d.Regular standard)
    (he : IsLatest (d.changes standard) epoch e)
    (hother : IsLatest (d.changes standard) epoch other) : e = other :=
  h.eq_of_since he.mem hother.mem
    (Int.le_antisymm (hother.last e he.mem he.le) (he.last other hother.mem hother.le))

end Daylight

namespace ZoneRule

variable {r : ZoneRule} {d : Daylight} {year epoch : Int}

/-- A lookup in a regular rule gives its latest transition, or what holds before all of
them. -/
theorem latest_cases (hd : r.daylight = some d) (h : d.Regular r.standard)
    (hyear : yearAt (epoch + r.standard) = .ok year) :
    (∃ e, IsLatest (d.changes r.standard) epoch e ∧ r.periodAt epoch = .ok e.period) ∨
      (∀ e ∈ d.changes r.standard, epoch < e.since) ∧
        r.periodAt epoch = .ok (d.beforeChanges r.standard) := by
  have hperiod := (periodAt_eq_ok_iff hd epoch _).2 ⟨year, hyear, rfl⟩
  rcases h.latest_cases hyear with ⟨e, he, heq⟩ | ⟨hnone, heq⟩
  · exact Or.inl ⟨e, he, by rw [hperiod, heq]⟩
  · exact Or.inr ⟨hnone, by rw [hperiod, heq]⟩

/-- From the latest transition on, the rule gives the same period. -/
theorem periodAt_of_isLatest (hd : r.daylight = some d) (h : d.Regular r.standard)
    (hyear : yearAt (epoch + r.standard) = .ok year) {e : ExactEntry} {x : Int}
    (he : IsLatest (d.changes r.standard) epoch e) (hfrom : e.since ≤ x) (hto : x ≤ epoch) :
    r.periodAt x = .ok e.period := by
  have hstandard := h.standard
  have hbegin := h.calendar_lt_since he.mem
  obtain ⟨hrange, -, hend⟩ := (yearAt_eq_ok_iff _ _).1 hyear
  have hcalendar := yearStart_mono (show year + 1 ≤ 10000 by omega)
  obtain ⟨other, hother⟩ := @exists_yearAt (x + r.standard) (by omega) (by omega)
  have hlatest := he.of_between hfrom hto
  rcases latest_cases hd h hother with ⟨found, hfound, hperiod⟩ | ⟨hnone, -⟩
  · rw [h.eq_of_isLatest hlatest hfound, hperiod]
  · exact absurd hfrom (Int.not_le.2 (hnone e he.mem))

/-- A regular rule gives the latest of all its transitions at or before an exact time:
when it happened, the offset that it began, and whether that is daylight time.  Before
all transitions it gives what holds before the first one. -/
theorem periodAt_latest (hd : r.daylight = some d) (h : d.Regular r.standard)
    (hyear : yearAt (epoch + r.standard) = .ok year) :
    ((∃ e ∈ d.changes r.standard, e.since ≤ epoch) →
        ∃ e, IsLatest (d.changes r.standard) epoch e) ∧
      (∀ e, IsLatest (d.changes r.standard) epoch e → r.periodAt epoch = .ok e.period) ∧
      ((∀ e ∈ d.changes r.standard, epoch < e.since) →
        r.periodAt epoch = .ok (d.beforeChanges r.standard)) := by
  rcases latest_cases hd h hyear with ⟨found, hfound, hperiod⟩ | ⟨hnone, hperiod⟩
  · refine ⟨fun _ => ⟨found, hfound⟩, fun e he => ?_, fun hnone => ?_⟩
    · rw [h.eq_of_isLatest he hfound, hperiod]
    · exact absurd hfound.le (Int.not_le.2 (hnone found hfound.mem))
  · refine ⟨?_, fun e he => ?_, fun _ => hperiod⟩
    · rintro ⟨e, he, hle⟩
      exact absurd hle (Int.not_le.2 (hnone e he))
    · exact absurd he.le (Int.not_le.2 (hnone e he.mem))

/-- At the turn of the year 2023, standard time holds in central Europe since October. -/
theorem centralEurope_periodAt_latest :
    IsLatest (centralEuropeDaylight.changes 3600) 1672531200 ⟨1667091600, 3600, false⟩ ∧
      centralEurope.periodAt 1672531200 = .ok ⟨3600, some 1667091600, false⟩ := by
  have hyear : yearAt (1672531200 + centralEurope.standard) = .ok 2023 := rfl
  obtain ⟨hexists, hlatest, -⟩ := periodAt_latest rfl centralEurope_regular hyear
  have hmem : (⟨1667091600, 3600, false⟩ : ExactEntry) ∈ centralEuropeDaylight.changes 3600 :=
    ⟨2022, by decide, by decide, Or.inr rfl⟩
  obtain ⟨e, he⟩ := hexists ⟨_, hmem, by decide⟩
  have hperiod : centralEurope.periodAt 1672531200 = .ok ⟨3600, some 1667091600, false⟩ := rfl
  obtain ⟨since, offset, isDaylight⟩ := e
  cases hperiod.symm.trans (hlatest _ he)
  exact ⟨he, hperiod⟩

end ZoneRule

end CivilTime
