import CivilTime.Proofs.RuleLocalTime

/-!
# The transitions of a yearly rule

A rule with daylight time has two transitions in every year.

* `Daylight.transitions` are those of all years of the calendar.  For a regular
  rule `Daylight.Regular.transitions_apart` keeps them two days from each other.
* `YearPlan.offsetAt_of_skipped` is about a local time that a year of a rule skips:
  read at the offset of one side of the gap, it lies on the other side.
* `ZoneRule.exists_transition_of_skipped` puts the two together.
-/

namespace CivilTime

/-! ## Gaps -/

/-- A skipped local time, read at the offset of one side of its gap, is an exact
time of the other side. -/
theorem YearPlan.offsetAt_of_skipped {p : YearPlan} (h : p.Spaced) {time before after : Int}
    (hskipped : p.localTimeAt time = .skipped before after) :
    after < before ∧ p.offsetAt (time - before) = after ∧ p.offsetAt (time - after) = before := by
  obtain ⟨houter, hinner, hapart⟩ := h
  unfold localTimeAt Daylight.localTimeBetween at hskipped
  dsimp only at hskipped
  by_cases hshift : 0 ≤ p.inner - p.outer
  · -- The clock goes forward at the first switch.
    rw [if_pos hshift] at hskipped
    split at hskipped
    · contradiction
    split at hskipped
    · next hfrom hto =>
      cases hskipped
      exact ⟨by omega, if_neg (by omega), if_pos (by omega)⟩
    · split at hskipped
      · contradiction
      · split at hskipped <;> contradiction
  · -- It goes forward at the second one.
    rw [if_neg hshift] at hskipped
    split at hskipped
    · contradiction
    split at hskipped
    · contradiction
    split at hskipped
    · contradiction
    split at hskipped
    · next hfrom hto =>
      cases hskipped
      exact ⟨by omega, if_pos (by omega), if_neg (by omega)⟩
    · contradiction

/-! ## All years -/

namespace Daylight

variable {d : Daylight} {standard x y : Int}

/-- The exact times at which daylight time begins or ends, in all years of the
calendar. -/
def transitions (d : Daylight) (standard : Int) : Set Int :=
  {x | ∃ year, 1 ≤ year ∧ year ≤ 9999 ∧
    (x = (d.exactBounds standard year).1 ∨ x = (d.exactBounds standard year).2)}

/-- Two transitions of a regular rule are two days or more apart. -/
theorem Regular.transitions_apart (h : d.Regular standard) (hx : x ∈ d.transitions standard)
    (hy : y ∈ d.transitions standard) (hne : x ≠ y) : 172800 ≤ (x - y).natAbs := by
  obtain ⟨year, hfirst, hlast, hx⟩ := hx
  obtain ⟨other, hfirst', hlast', hy⟩ := hy
  rw [exactBounds_eq] at hx hy
  dsimp only at hx hy
  have hstandard := h.standard
  have hoffset := h.offset
  have hstart := h.start year hfirst hlast
  have hstop := h.stop year hfirst hlast
  have hapart := h.apart year hfirst hlast
  have hstart' := h.start other hfirst' hlast'
  have hstop' := h.stop other hfirst' hlast'
  rcases Int.lt_trichotomy year other with hlt | rfl | hgt
  · have hyears := yearStart_mono (show year + 1 ≤ other by omega)
    omega
  · omega
  · have hyears := yearStart_mono (show other + 1 ≤ year by omega)
    omega

theorem mem_transitions_of_isSwitch {year : Int} (hfirst : 1 ≤ year) (hlast : year ≤ 9999)
    (hx : (d.planIn standard year).IsSwitch x) : x ∈ d.transitions standard :=
  ⟨year, hfirst, hlast, exactBounds_of_isSwitch hx⟩

end Daylight

namespace ZoneRule

variable {r : ZoneRule} {d : Daylight} {time before after : Int}

/-- A local time that a regular rule skips lies in the gap of one transition.  Read
at the offset of one side of the gap, it is an exact time of the other side, and no
other transition lies between the two exact times, which are less than two days
apart. -/
theorem exists_transition_of_skipped (hd : r.daylight = some d) (h : d.Regular r.standard)
    {year : Int} (hfirst : 2 ≤ year) (hlast : year ≤ 9998) (hyear : yearAt time = .ok year)
    (hskipped : r.localTimeAt time = .ok (.skipped before after)) :
    (after < before ∧ before - after < 172800) ∧
      (∃ period, r.periodAt (time - before) = .ok period ∧ period.offset = after) ∧
      (∃ period, r.periodAt (time - after) = .ok period ∧ period.offset = before) ∧
      ∃ x ∈ d.transitions r.standard, time - before < x ∧ x ≤ time - after ∧
        (∃ period, r.periodAt (x - 1) = .ok period ∧ period.offset = after) ∧
        (∃ period, r.periodAt x = .ok period ∧ period.offset = before) ∧
        ∀ y ∈ d.transitions r.standard, time - before < y → y ≤ time - after → y = x := by
  have hinside : (d.planIn r.standard year).Inside year := h.inside (by omega) (by omega)
  obtain ⟨-, hstart, hstop⟩ := (yearAt_eq_ok_iff _ _).1 hyear
  rw [localTimeAt_eq hd hyear, Except.ok.injEq] at hskipped
  obtain ⟨hgap, hearly, hlate⟩ := YearPlan.offsetAt_of_skipped hinside.toSpaced hskipped
  obtain ⟨x, hswitch, hbefore, hafter, hlow, hhigh⟩ :=
    YearPlan.isSwitch_of_skipped hinside.toSpaced hskipped
  have hbound := YearPlan.offsetAt_natAbs hinside.toSpaced (x - 1)
  have hbound' := YearPlan.offsetAt_natAbs hinside.toSpaced x
  have hperiod : ∀ z, yearStart year - 86400 < z → z < yearStart (year + 1) + 86400 →
      ∃ period, r.periodAt z = .ok period ∧
        period.offset = (d.planIn r.standard year).offsetAt z :=
    fun z => periodAt_offset hd h hfirst hlast
  refine ⟨⟨hgap, by omega⟩, ?_, ?_, x, ?_, hlow, hhigh, ?_, ?_, fun y hy hylow hyhigh => ?_⟩
  · rw [← hearly]
    exact hperiod _ (by omega) (by omega)
  · rw [← hlate]
    exact hperiod _ (by omega) (by omega)
  · exact Daylight.mem_transitions_of_isSwitch (by omega) (by omega) hswitch
  · rw [← hbefore]
    exact hperiod _ (by omega) (by omega)
  · rw [← hafter]
    exact hperiod _ (by omega) (by omega)
  · -- The gap is shorter than two transitions are apart.
    have hmem : x ∈ d.transitions r.standard :=
      Daylight.mem_transitions_of_isSwitch (by omega) (by omega) hswitch
    have hapart := h.transitions_apart hy hmem
    by_contra hne
    have hdays := hapart hne
    omega

end ZoneRule

end CivilTime
