import CivilTime.Proofs.DifferenceAcrossZones
import CivilTime.Proofs.DifferenceWithinZone

/-!
# The direction of a difference

Across zones two instants are put in order by their exact times.  Within one
named zone their readings do that, which can be the reverse where the clock goes
back; the direction is then turned round once more.

* `inverted_of_acrossZones` is the first case.
* `ConsistentIn.reversed_iff` says that readings in order come in the reverse of
  exact order only by seconds: at the same second they come in the same order.
* `inverted_of_named` is the second case, and `inverted_iff` is the result.
-/

namespace CivilTime

namespace Instant

variable {data : ZoneData} {a b one two : Instant} {i : Interval} {notes : List Note}

theorem earlierThan_iff_lex :
    a.earlierThan b = true ↔
      a.epoch < b.epoch ∨ a.epoch = b.epoch ∧ a.microsecond < b.microsecond := by
  simp only [earlierThan, Bool.or_eq_true, Bool.and_eq_true, decide_eq_true_eq]

/-- Across zones the direction is whether the instants had to be exchanged. -/
theorem inverted_of_acrossZones (hzones : a.zone.sameNamed b.zone = false)
    (h : acrossZones a b = .ok i) : i.inverted = b.earlierThan a := by
  have horder : (a.inOrder b).2.2 = b.earlierThan a := by
    rw [inOrder_eq hzones]
    cases b.earlierThan a <;> rfl
  obtain ⟨zone, -, h⟩ := bind_eq_ok.1 h
  obtain ⟨two', -, h⟩ := bind_eq_ok.1 h
  obtain rfl := pure_eq_ok.1 h
  exact horder

/-- Readings in order belong to instants in reverse only if the seconds are in
reverse: at one second the zone has one offset, and the microseconds decide
both. -/
theorem ConsistentIn.reversed_iff (hone : ConsistentIn data one) (htwo : ConsistentIn data two)
    (h : two.reading.before one.reading = false) :
    two.epoch < one.epoch ↔ two.earlierThan one = true := by
  have hclock := (before_eq_false_iff htwo hone).1 h
  rw [earlierThan_iff_lex]
  constructor
  · exact Or.inl
  · rintro (hlt | ⟨hsecond, hmicro⟩)
    · exact hlt
    · have hkept := (kept_eq htwo hone hsecond).1
      unfold microEpoch at hclock
      omega

/-- Within a named zone the direction is that of exact time. -/
theorem inverted_of_named (ha : ConsistentIn data a) (hb : ConsistentIn data b)
    (h : a.diff b = .ok (i, notes)) : i.inverted = b.earlierThan a := by
  cases hbefore : b.reading.before a.reading with
  | false =>
    rw [diff_eq_of_not_before ha hb hbefore] at h
    obtain ⟨c, -, hi⟩ := map_eq_ok.1 h
    have hreversed := ha.reversed_iff hb hbefore
    rw [← (Prod.mk.inj hi).1, Bool.eq_iff_iff, ← hreversed]
    simp
  | true =>
    rw [diff_eq_of_before ha hb hbefore] at h
    obtain ⟨c, -, hi⟩ := map_eq_ok.1 h
    have hclock := (hb.before_iff ha).1 hbefore
    have hother : a.reading.before b.reading = false := by
      rw [ha.before_eq_false_iff hb]
      omega
    -- Readings that differ are not of one exact time, so one instant is the earlier.
    have hdiffer : a.microEpoch ≠ b.microEpoch := by
      intro hsame
      rw [ha.eq_of_microEpoch hb hsame] at hclock
      exact Int.lt_irrefl _ hclock
    have hreversed := hb.reversed_iff ha hother
    rw [ha.earlierThan_iff hb] at hreversed
    have hinverted : ¬ a.epoch < b.epoch ↔ b.microEpoch < a.microEpoch := by
      rw [hreversed]
      omega
    rw [← (Prod.mk.inj hi).1, Bool.eq_iff_iff, hb.earlierThan_iff ha, ← hinverted]
    simp

theorem exists_named_of_sameNamed {x y : Zone} (h : x.sameNamed y = true) :
    ∃ data, x = .named data ∧ y = .named data := by
  unfold Zone.sameNamed at h
  split at h
  · obtain rfl := of_decide_eq_true h
    exact ⟨_, rfl, rfl⟩
  · contradiction

/-- Whatever the zones, a difference counts backward exactly if the second
instant is the earlier one in exact time. -/
theorem inverted_iff (ha : a.Consistent) (hb : b.Consistent) (h : a.diff b = .ok (i, notes)) :
    i.inverted = true ↔
      b.epoch < a.epoch ∨ b.epoch = a.epoch ∧ b.microsecond < a.microsecond := by
  rw [← earlierThan_iff_lex]
  cases hzones : a.zone.sameNamed b.zone with
  | false =>
    rw [diff_eq hzones] at h
    obtain ⟨j, hj, h⟩ := bind_eq_ok.1 h
    obtain ⟨rfl, -⟩ := Prod.mk.inj (pure_eq_ok.1 h)
    rw [inverted_of_acrossZones hzones hj]
  | true =>
    obtain ⟨data, hazone, hbzone⟩ := exists_named_of_sameNamed hzones
    rw [inverted_of_named ⟨ha, hazone⟩ ⟨hb, hbzone⟩ h]

/-- A quarter of an hour after the clock of the zone went back. -/
def sundayQuarterPastOneAgain : Instant where
  reading := ⟨2023, 11, 5, 1, 15, 0, 0⟩
  epoch := 1699164900
  kept := -18000
  isDaylight := false
  zone := .named eastern

/-- The reading of the later instant comes first, and the difference still counts
forward. -/
theorem inverted_sundayHalfPastOne :
    ∃ i notes, sundayHalfPastOne.diff sundayQuarterPastOneAgain = .ok (i, notes) ∧
      sundayQuarterPastOneAgain.reading.before sundayHalfPastOne.reading = true ∧
      i.inverted = false := by
  have hafter : sundayQuarterPastOneAgain.Consistent :=
    ⟨(Reading.check_eq_ok_iff _).1 rfl, rfl, rfl⟩
  have hdiff : sundayHalfPastOne.diff sundayQuarterPastOneAgain =
      .ok (correctedInterval sundayQuarterPastOneAgain sundayHalfPastOne true .none) :=
    diff_eq_of_correction rfl rfl rfl rfl
  refine ⟨_, _, hdiff, by decide, ?_⟩
  rw [← Bool.not_eq_true, inverted_iff consistent_sundayHalfPastOne hafter hdiff]
  decide

end Instant

end CivilTime
