import CivilTime.Proofs.RuleLocalTime
import CivilTime.ZoneRule.Reader

/-!
# The offsets of a rule

A rule has two offsets at most, and the reader of rules accepts only offsets
of less than a day.

* `ZoneRule.offset_cases` names the two offsets.
* `ZoneRule.exists_periodAt` and `ZoneRule.exists_periodAt_of_between` say
  where a rule gives an offset.
* `ZoneRule.withinDay_of_read` bounds the offsets of every rule that is read.
-/

namespace CivilTime.ZoneRule

variable {r : ZoneRule} {x : Int} {period : OffsetPeriod}

/-- The offset of daylight time, or the standard offset without it. -/
def otherOffset (r : ZoneRule) : Int :=
  match r.daylight with
  | some d => d.offset
  | none => r.standard

theorem periodIn_offset_cases (d : Daylight) (standard year x : Int) :
    (d.periodIn standard year x).offset = standard ∨
      (d.periodIn standard year x).offset = d.offset := by
  unfold Daylight.periodIn
  dsimp only
  split
  · split
    · exact Or.inr rfl
    · split <;> exact Or.inl rfl
  · split
    · exact Or.inl rfl
    · split <;> exact Or.inr rfl

/-- A rule has no more than two offsets. -/
theorem offset_cases (h : r.periodAt x = .ok period) :
    period.offset = r.standard ∨ period.offset = r.otherOffset := by
  unfold otherOffset
  cases hd : r.daylight with
  | none =>
    rw [periodAt, hd] at h
    cases h
    exact Or.inl rfl
  | some d =>
    obtain ⟨year, -, rfl⟩ := (periodAt_eq_ok_iff hd x period).1 h
    exact periodIn_offset_cases d r.standard year x

/-! ## Offsets of less than a day -/

/-- The offsets are less than a day. -/
structure WithinDay (r : ZoneRule) : Prop where
  standard : r.standard.natAbs < 86400
  other : r.otherOffset.natAbs < 86400

theorem WithinDay.offset (h : r.WithinDay) (hperiod : r.periodAt x = .ok period) :
    period.offset.natAbs < 86400 := by
  rcases offset_cases hperiod with heq | heq
  · rw [heq]
    exact h.standard
  · rw [heq]
    exact h.other

/-- A rule gives an offset except near the ends of the calendar. -/
theorem exists_periodAt (h : r.WithinDay) (hfrom : yearStart 1 + 86400 ≤ x)
    (hto : x + 86400 ≤ yearStart 10000) : ∃ period, r.periodAt x = .ok period := by
  have hstandard := h.standard
  cases hd : r.daylight with
  | none => exact ⟨⟨r.standard, none, false⟩, by rw [periodAt, hd]⟩
  | some d =>
    obtain ⟨year, hyear⟩ := @exists_yearAt (x + r.standard) (by omega) (by omega)
    exact ⟨_, (periodAt_eq_ok_iff hd _ _).2 ⟨year, hyear, rfl⟩⟩

/-- A rule gives an offset between two exact times at which it gives one. -/
theorem exists_periodAt_of_between {low high : Int} {p q : OffsetPeriod}
    (hlow : r.periodAt low = .ok p) (hhigh : r.periodAt high = .ok q) (hfrom : low ≤ x)
    (hto : x ≤ high) : ∃ period, r.periodAt x = .ok period := by
  cases hd : r.daylight with
  | none => exact ⟨⟨r.standard, none, false⟩, by rw [periodAt, hd]⟩
  | some d =>
    obtain ⟨first, hfirst, -⟩ := (periodAt_eq_ok_iff hd _ _).1 hlow
    obtain ⟨last, hlast, -⟩ := (periodAt_eq_ok_iff hd _ _).1 hhigh
    obtain ⟨hfirst, hstart, -⟩ := (yearAt_eq_ok_iff _ _).1 hfirst
    obtain ⟨hlast, -, hstop⟩ := (yearAt_eq_ok_iff _ _).1 hlast
    have hbegin := yearStart_mono hfirst.1
    have hend := yearStart_mono (show last + 1 ≤ 10000 by omega)
    obtain ⟨year, hyear⟩ := @exists_yearAt (x + r.standard) (by omega) (by omega)
    exact ⟨_, (periodAt_eq_ok_iff hd _ _).2 ⟨year, hyear, rfl⟩⟩

theorem natAbs_of_readOffset {total : Nat} {text rest : List Char} {offset : Int}
    (h : readOffset total text = .ok (offset, rest)) : offset.natAbs < 86400 := by
  obtain ⟨⟨seconds, rest'⟩, -, h⟩ := bind_eq_ok.1 h
  dsimp only at h
  split at h
  · contradiction
  · have hpair := Prod.mk.inj (pure_eq_ok.1 h)
    omega

theorem natAbs_of_readDaylight {total : Nat} {text : List Char} {standard : Int} {d : Daylight}
    (hstandard : standard.natAbs < 86400) (h : readDaylight total standard text = .ok d) :
    d.offset.natAbs < 86400 := by
  obtain ⟨named, -, h⟩ := bind_eq_ok.1 h
  obtain ⟨⟨offset, rest⟩, hoffset, h⟩ := bind_eq_ok.1 h
  obtain ⟨_, -, h⟩ := bind_eq_ok.1 h
  obtain ⟨_, -, h⟩ := bind_eq_ok.1 h
  obtain ⟨_, -, h⟩ := bind_eq_ok.1 h
  obtain ⟨_, -, h⟩ := bind_eq_ok.1 h
  dsimp only at h
  split at h
  · obtain rfl := pure_eq_ok.1 h
    unfold readDaylightOffset at hoffset
    split at hoffset
    · split at hoffset
      · contradiction
      · have hpair := Prod.mk.inj (Except.ok.inj hoffset)
        simp only [defaultShift] at *
        omega
    · exact natAbs_of_readOffset hoffset
  · contradiction

/-- The reader accepts only offsets of less than a day. -/
theorem withinDay_of_read {text : List Char} (h : read text = .ok r) : r.WithinDay := by
  unfold read at h
  dsimp only at h
  split at h
  · contradiction
  obtain ⟨named, -, h⟩ := bind_eq_ok.1 h
  obtain ⟨⟨standard, rest⟩, hstandard, h⟩ := bind_eq_ok.1 h
  have hbound := natAbs_of_readOffset hstandard
  dsimp only at h
  split at h
  · obtain rfl := pure_eq_ok.1 h
    exact ⟨hbound, hbound⟩
  · obtain ⟨d, hd, h⟩ := bind_eq_ok.1 h
    obtain rfl := pure_eq_ok.1 h
    exact ⟨hbound, natAbs_of_readDaylight hbound hd⟩

end CivilTime.ZoneRule
